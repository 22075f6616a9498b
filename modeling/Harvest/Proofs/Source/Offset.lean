import Harvest.Proofs.Source.Cut

/-!
# Offsets count code units

A place in a file is counted in bytes of UTF-8, and a message gives it in code units of UTF-16. At a place
between two characters both counts divide the file alike: the code units before the offset are those of
the characters before the place, so the offset never falls into a surrogate pair, what a span covers
begins at its offset, and later places have larger offsets.
-/

namespace Harvest

namespace Text

/-! ## UTF-16 -/

/-- The code units of a character. Outside the basic plane they are a pair of surrogates, which hold ten
bits each of what the character's number exceeds the plane by. -/
def utf16Of (c : Char) : List UInt16 :=
  if c.toNat < 0x10000 then [.ofNat c.toNat]
  else [.ofNat (0xD800 + (c.toNat - 0x10000) / 0x400), .ofNat (0xDC00 + (c.toNat - 0x10000) % 0x400)]

/-- A text in UTF-16. -/
def utf16 (text : List Char) : List UInt16 := text.flatMap utf16Of

/-- The first half of a pair. -/
def isHighSurrogate (unit : UInt16) : Bool := 0xD800 ≤ unit.toNat && unit.toNat < 0xDC00

/-- The second half of a pair. -/
def isLowSurrogate (unit : UInt16) : Bool := 0xDC00 ≤ unit.toNat && unit.toNat < 0xE000

/-- A place between the two halves of a pair. -/
def SplitsPair (units : List UInt16) (place : Nat) : Prop :=
  ∃ front high low back, units = front ++ high :: low :: back ∧ place = front.length + 1 ∧
    isHighSurrogate high = true ∧ isLowSurrogate low = true

private theorem length_utf16 (text : List Char) : (utf16 text).length = unitCount text := by
  induction text with
  | nil => rfl
  | cons c rest ih =>
    have one : (utf16Of c).length = codeUnits c := by
      unfold utf16Of codeUnits
      split <;> rfl
    rw [utf16, List.flatMap_cons, List.length_append, one, unitCount]
    exact congrArg (codeUnits c + ·) ih

private theorem utf16_append (front back : List Char) : utf16 (front ++ back) = utf16 front ++ utf16 back :=
  List.flatMap_append

/-- No character begins with the second half of a pair: scalar values are no surrogates, and a pair
begins with its first half. -/
theorem exists_utf16Of_eq_cons (c : Char) :
    ∃ first more, utf16Of c = first :: more ∧ isLowSurrogate first = false := by
  have valid : c.toNat < 0xD800 ∨ 0xDFFF < c.toNat ∧ c.toNat < 0x110000 := c.valid
  unfold utf16Of
  split
  · refine ⟨_, _, rfl, ?_⟩
    simp only [isLowSurrogate, UInt16.toNat_ofNat', Bool.and_eq_false_iff, decide_eq_false_iff_not]
    omega
  · refine ⟨_, _, rfl, ?_⟩
    simp only [isLowSurrogate, UInt16.toNat_ofNat', Bool.and_eq_false_iff, decide_eq_false_iff_not]
    omega

/-- The code units of whole characters end where no pair is split. -/
theorem not_splitsPair (front back : List Char) :
    ¬ SplitsPair (utf16 (front ++ back)) (unitCount front) := by
  rintro ⟨before, high, low, after, units, place, _, isLow⟩
  have split : utf16 back = low :: after := by
    have regrouped : utf16 front ++ utf16 back = (before ++ [high]) ++ low :: after := by
      rw [← utf16_append, units, List.append_assoc]
      rfl
    have lengths : (utf16 front).length = (before ++ [high]).length := by
      rw [length_utf16, place, List.length_append]
      rfl
    exact (List.append_inj regrouped lengths).2
  cases back with
  | nil => cases split
  | cons c rest =>
    obtain ⟨first, more, characters, notLow⟩ := exists_utf16Of_eq_cons c
    rw [utf16, List.flatMap_cons, characters, List.cons_append] at split
    rw [(List.cons.inj split).1, isLow] at notLow
    cases notLow

/-- Inside of a character outside the basic plane a pair is split. -/
example : SplitsPair (utf16 "a😀".toList) 2 := ⟨[0x61], 0xD83D, 0xDE00, [], by decide⟩

/-! ## Places between characters -/

/-- Bytes and code units put the characters in front of two places in the same order. -/
theorem unitCount_lt_iff {text front other : List Char} (first : front <+: text)
    (second : other <+: text) :
    unitCount front < unitCount other ↔ byteSize front < byteSize other := by
  have both : ∀ between : List Char, unitCount between = 0 ↔ byteSize between = 0 := by
    intro between
    cases between with
    | nil => exact Iff.rfl
    | cons c rest =>
      have bytes := c.utf8Size_pos
      have units : 0 < codeUnits c := by
        unfold codeUnits
        split <;> decide
      rw [unitCount, byteSize]
      omega
  rcases List.prefix_or_prefix_of_prefix first second with ⟨between, rfl⟩ | ⟨between, rfl⟩
  · have zero := both between
    rw [unitCount_append, byteSize_append]
    omega
  · rw [unitCount_append, byteSize_append]
    omega

end Text

/-! ## Offsets of a file -/

namespace SourceFile

open Text (Span utf16 SplitsPair)

variable {file : SourceFile} {span other : Span}

/-- **Offsets count code units.** Let both ends of a span lie between characters of a file. Then the file
shows its text and its offset. Behind as many code units of the file as its offset says, those of its text
follow, and the offset lies in no surrogate pair. Of two spans that have offsets, the one with the larger
offset is the one that starts behind the other, so spans with the same offset start at the same
character. -/
theorem offset_counts_code_units (file : SourceFile) :
    (∀ span : Span, span.Whole file.code →
      ∃ text offset, file.text span = .ok text ∧ file.offset span = .ok offset ∧
        offset ≤ (utf16 file.code).length ∧
        utf16 text.toList <+: (utf16 file.code).drop offset ∧
        ¬ SplitsPair (utf16 file.code) offset) ∧
    ∀ (span other : Span) (offset offset' : Nat),
      file.offset span = .ok offset → file.offset other = .ok offset' →
      (offset < offset' ↔ span.start < other.start) ∧ (offset = offset' ↔ span.start = other.start) := by
  constructor
  · intro span whole
    obtain ⟨front, cut, cuts⟩ := whole.exists_cuts
    obtain ⟨back, code⟩ := cuts.stands
    have units : utf16 file.code = utf16 front ++ (utf16 cut ++ utf16 back) := by
      rw [← Text.utf16_append, ← Text.utf16_append, ← code, List.append_assoc]
    have length := Text.length_utf16 front
    refine ⟨String.ofList cut, Text.unitCount front, text_eq_ok.mpr ⟨front, ?_⟩,
      offset_eq_ok.mpr ⟨front, (List.prefix_append front cut).trans cuts.stands, cuts.start, rfl⟩, ?_, ?_,
      ?_⟩
    · rwa [String.toList_ofList]
    · rw [units, List.length_append, length]
      exact Nat.le_add_right _ _
    · rw [String.toList_ofList, units, ← length, List.drop_left]
      exact List.prefix_append _ _
    · rw [← code, List.append_assoc]
      exact Text.not_splitsPair _ _
  · intro span other offset offset' counted counted'
    obtain ⟨front, inside, start, rfl⟩ := offset_eq_ok.mp counted
    obtain ⟨front', inside', start', rfl⟩ := offset_eq_ok.mp counted'
    have before := Text.unitCount_lt_iff inside inside'
    have behind := Text.unitCount_lt_iff inside' inside
    rw [start, start']
    omega

/-- A file with characters of one to four bytes around and inside of a call. -/
def mixedFile : SourceFile where
  index := 0
  path := ⟨"/a.ts"⟩
  code := "é😀 €f('😀é')".toList
  parsed := ⟨[]⟩
  isDeclaration := false

/-- The call and its argument in `mixedFile`. -/
theorem mixedFile_counts_code_units :
    let call : Span := ⟨10, 21⟩
    let argument : Span := ⟨12, 20⟩
    call.Whole mixedFile.code ∧ argument.Whole mixedFile.code ∧
      mixedFile.text argument = .ok "'😀é'" ∧ mixedFile.offset call = .ok 5 ∧
      mixedFile.offset argument = .ok 7 ∧
      (∃ text offset, mixedFile.text argument = .ok text ∧ mixedFile.offset argument = .ok offset ∧
        utf16 text.toList <+: (utf16 mixedFile.code).drop offset ∧
        ¬ SplitsPair (utf16 mixedFile.code) offset) ∧
      (5 < 7 ↔ call.start < argument.start) := by
  have whole : Span.Whole ⟨10, 21⟩ mixedFile.code ∧ Span.Whole ⟨12, 20⟩ mixedFile.code := by decide
  have counted : mixedFile.offset ⟨10, 21⟩ = .ok 5 ∧ mixedFile.offset ⟨12, 20⟩ = .ok 7 := ⟨rfl, rfl⟩
  obtain ⟨each, order⟩ := offset_counts_code_units mixedFile
  obtain ⟨text, offset, shown, placed, _, follows, between⟩ := each _ whole.2
  exact ⟨whole.1, whole.2, rfl, counted.1, counted.2, ⟨text, offset, shown, placed, follows, between⟩,
    (order _ _ _ _ counted.1 counted.2).1⟩

end SourceFile

end Harvest
