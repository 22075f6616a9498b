import Harvest.Text.Span

/-!
# Cutting between characters

A place that lies between two characters divides a text into two parts, and no other place does. Both
ways of reading a text at a span succeed exactly on whole spans, whose ends are such places, and find
the characters around and between them (`slice?_eq_some`). `Reaches` says that one such place lies behind
another.
-/

namespace Harvest.Text

/-- The size of a text is the sum of the sizes of its parts. -/
@[simp] theorem byteSize_append (first second : List Char) :
    byteSize (first ++ second) = byteSize first + byteSize second := by
  induction first with
  | nil => simp [byteSize]
  | cons c first ih => simp [byteSize, ih, Nat.add_assoc]

/-- The length of a text in code units is the sum of the lengths of its parts. -/
@[simp] theorem unitCount_append (first second : List Char) :
    unitCount (first ++ second) = unitCount first + unitCount second := by
  induction first with
  | nil => simp [unitCount]
  | cons c first ih => simp [unitCount, ih, Nat.add_assoc]

/-! ## Dividing a text -/

/-- A text is divided at a place exactly if whole characters of it stand in front of the place. -/
theorem divide?_eq_some {text front back : List Char} {place : Nat} :
    divide? text place = some (front, back) ↔ text = front ++ back ∧ byteSize front = place := by
  induction text generalizing front place with
  | nil =>
    rw [divide?]
    constructor
    · intro divided
      split at divided
      · next zero =>
        cases divided
        exact ⟨rfl, zero.symm⟩
      · cases divided
    · rintro ⟨nothing, rfl⟩
      obtain ⟨rfl, rfl⟩ := List.append_eq_nil_iff.mp nothing.symm
      rfl
  | cons c rest ih =>
    have positive := c.utf8Size_pos
    rw [divide?]
    constructor
    · intro divided
      split at divided
      · next zero =>
        cases divided
        exact ⟨rfl, zero.symm⟩
      split at divided
      · cases divided
      · next inside =>
        obtain ⟨⟨front', back'⟩, below, equal⟩ := Option.map_eq_some_iff.mp divided
        cases equal
        obtain ⟨rfl, size⟩ := ih.mp below
        exact ⟨rfl, by rw [byteSize, size]; omega⟩
    · rintro ⟨equal, rfl⟩
      cases front with
      | nil =>
        cases equal
        rw [byteSize, if_pos rfl]
      | cons d front =>
        cases equal
        have below := ih.mpr ⟨rfl, rfl⟩
        rw [byteSize, if_neg (by omega), if_neg (by omega), Nat.add_sub_cancel_left, below]
        rfl

/-- Characters that were put in front of a text move the places in it by their size. -/
theorem divide?_append_add (front text : List Char) (place : Nat) :
    divide? (front ++ text) (byteSize front + place) =
      (divide? text place).map fun parts => (front ++ parts.1, parts.2) := by
  induction front with
  | nil => simp [byteSize]
  | cons c front ih =>
    have positive := c.utf8Size_pos
    have rest : c.utf8Size + byteSize front + place - c.utf8Size = byteSize front + place := by omega
    rw [List.cons_append, divide?, byteSize, if_neg (by omega), if_neg (by omega), rest, ih, Option.map_map]
    rfl

/-! ## Cutting a span out of a text -/

/-- The place lies at the start or the end of a text or between two of its characters. -/
def IsBoundary (text : List Char) (place : Nat) : Prop := ∃ front, front <+: text ∧ byteSize front = place

/-- At the places between characters a text can be divided, and nowhere else. -/
theorem isBoundary_iff {text : List Char} {place : Nat} :
    IsBoundary text place ↔ (divide? text place).isSome = true := by
  rw [Option.isSome_iff_exists]
  constructor
  · rintro ⟨front, ⟨back, stands⟩, size⟩
    exact ⟨(front, back), divide?_eq_some.mpr ⟨stands.symm, size⟩⟩
  · rintro ⟨⟨front, back⟩, divided⟩
    obtain ⟨stands, size⟩ := divide?_eq_some.mp divided
    exact ⟨front, ⟨back, stands.symm⟩, size⟩

instance (text : List Char) (place : Nat) : Decidable (IsBoundary text place) :=
  decidable_of_iff _ isBoundary_iff.symm

/-- A span whose ends lie between characters, in their order. -/
structure Span.Whole (span : Span) (text : List Char) : Prop where
  start : IsBoundary text span.start
  stop : IsBoundary text span.stop
  ordered : span.start ≤ span.stop

/-- The characters `cut` stand in a text behind `front`, and the span gives their place. -/
structure Cuts (text : List Char) (span : Span) (front cut : List Char) : Prop where
  stands : front ++ cut <+: text
  start : span.start = byteSize front
  stop : span.stop = byteSize front + byteSize cut

variable {text front cut : List Char} {span : Span}

private theorem eq_nil_of_byteSize_eq_zero (zero : byteSize text = 0) : text = [] := by
  cases text with
  | nil => rfl
  | cons c rest =>
    have positive := c.utf8Size_pos
    rw [byteSize] at zero
    omega

/-- Whole characters stand between the ends of a span. -/
theorem Span.Whole.exists_cuts (whole : span.Whole text) : ∃ front cut, Cuts text span front cut := by
  obtain ⟨front, inFront, start⟩ := whole.start
  obtain ⟨upTo, inside, stop⟩ := whole.stop
  have ordered := whole.ordered
  rw [← start, ← stop] at ordered
  obtain ⟨cut, rfl⟩ : front <+: upTo := by
    rcases List.prefix_or_prefix_of_prefix inFront inside with shorter | ⟨surplus, rfl⟩
    · exact shorter
    · rw [byteSize_append] at ordered
      have nothing : surplus = [] := eq_nil_of_byteSize_eq_zero (by omega)
      exact ⟨[], by rw [nothing, List.append_nil, List.append_nil]⟩
  rw [byteSize_append] at stop
  exact ⟨front, cut, inside, start.symm, stop.symm⟩

/-- A span that cuts characters out of a text is whole. -/
theorem Cuts.whole (cuts : Cuts text span front cut) : span.Whole text where
  start := ⟨front, (List.prefix_append front cut).trans cuts.stands, cuts.start.symm⟩
  stop := ⟨front ++ cut, cuts.stands, by rw [byteSize_append, cuts.stop]⟩
  ordered := by
    rw [cuts.start, cuts.stop]
    exact Nat.le_add_right _ _

/-- What a span covers are the characters that stand between its ends. -/
theorem slice?_eq_some : slice? text span = some cut ↔ ∃ front, Cuts text span front cut := by
  rw [slice?]
  constructor
  · intro sliced
    split at sliced
    · next ordered =>
      obtain ⟨⟨front, rest⟩, first, second⟩ := Option.bind_eq_some_iff.mp sliced
      obtain ⟨⟨_, back⟩, divided, rfl⟩ := Option.map_eq_some_iff.mp second
      obtain ⟨rfl, start⟩ := divide?_eq_some.mp first
      obtain ⟨rfl, size⟩ := divide?_eq_some.mp divided
      refine ⟨front, ⟨back, by rw [List.append_assoc]⟩, start.symm, ?_⟩
      rw [start, size]
      exact (Nat.add_sub_cancel' ordered).symm
    · cases sliced
  · rintro ⟨front, cuts⟩
    obtain ⟨⟨back, rfl⟩, start, stop⟩ := cuts
    have first : divide? (front ++ cut ++ back) span.start = some (front, cut ++ back) :=
      divide?_eq_some.mpr ⟨by rw [List.append_assoc], start.symm⟩
    have second : divide? (cut ++ back) (span.stop - span.start) = some (cut, back) :=
      divide?_eq_some.mpr ⟨rfl, by omega⟩
    rw [if_pos (by omega), first, Option.bind_some, second]
    rfl

/-- Whole spans can be cut out of a text, and no others. -/
theorem Span.whole_iff : span.Whole text ↔ (slice? text span).isSome = true := by
  rw [Option.isSome_iff_exists]
  constructor
  · intro whole
    obtain ⟨front, cut, cuts⟩ := whole.exists_cuts
    exact ⟨cut, slice?_eq_some.mpr ⟨front, cuts⟩⟩
  · rintro ⟨cut, sliced⟩
    obtain ⟨front, cuts⟩ := slice?_eq_some.mp sliced
    exact cuts.whole

instance (span : Span) (text : List Char) : Decidable (span.Whole text) :=
  decidable_of_iff _ Span.whole_iff.symm

/-- The same stretch in a text that something was put in front of. -/
def Span.shift (size : Nat) (span : Span) : Span := ⟨size + span.start, size + span.stop⟩

/-- Characters that were put in front of a text do not change what a span covers, once it is moved by
their size. -/
theorem slice?_append_shift (front text : List Char) (span : Span) :
    slice? (front ++ text) (span.shift (byteSize front)) = slice? text span := by
  have length : byteSize front + span.stop - (byteSize front + span.start) = span.stop - span.start := by
    omega
  simp only [slice?, Span.shift, Nat.add_le_add_iff_left, divide?_append_add, length]
  cases divide? text span.start <;> rfl

/-! ## Places ahead of each other -/

/-- The text `rest` at the place `stop` lies ahead of `text` at `pos`, with whole characters between
the two. -/
def Reaches (text : List Char) (pos : Nat) (rest : List Char) (stop : Nat) : Prop :=
  ∃ taken, text = taken ++ rest ∧ stop = pos + byteSize taken

namespace Reaches

variable {text middle rest : List Char} {pos place stop : Nat}

/-- Every text reaches itself. -/
theorem refl (text : List Char) (pos : Nat) : Reaches text pos text pos := ⟨[], rfl, rfl⟩

/-- What is reached from a reached text is reached. -/
theorem trans (first : Reaches text pos middle place) (second : Reaches middle place rest stop) :
    Reaches text pos rest stop := by
  obtain ⟨front, rfl, rfl⟩ := first
  obtain ⟨back, rfl, rfl⟩ := second
  exact ⟨front ++ back, by simp, by simp [Nat.add_assoc]⟩

/-- One more character in front. -/
theorem cons (c : Char) (ahead : Reaches text (pos + c.utf8Size) rest stop) :
    Reaches (c :: text) pos rest stop := by
  obtain ⟨taken, rfl, rfl⟩ := ahead
  exact ⟨c :: taken, rfl, by simp [byteSize, Nat.add_assoc]⟩

/-- One more character of one byte in front. -/
theorem consAscii {c : Char} (size : c.utf8Size = 1) (ahead : Reaches text (pos + 1) rest stop) :
    Reaches (c :: text) pos rest stop :=
  cons c (size ▸ ahead)

/-- One more character in front, which a test has shown to be a certain one of one byte. -/
theorem consBeq {c d : Char} (same : (c == d) = true) (size : d.utf8Size = 1)
    (ahead : Reaches text (pos + 1) rest stop) : Reaches (c :: text) pos rest stop := by
  rw [eq_of_beq same]
  exact consAscii size ahead

/-- Places may be counted from anywhere. -/
theorem shift (offset : Nat) (ahead : Reaches text pos rest stop) :
    Reaches text (offset + pos) rest (offset + stop) := by
  obtain ⟨taken, rfl, rfl⟩ := ahead
  exact ⟨taken, rfl, by rw [Nat.add_assoc]⟩

end Reaches

/-- A stretch of characters of one byte each. -/
theorem reaches_of_ascii {taken : List Char} (rest : List Char) (pos : Nat)
    (ascii : ∀ c ∈ taken, c.utf8Size = 1) :
    Reaches (taken ++ rest) pos rest (pos + taken.length) := by
  refine ⟨taken, rfl, ?_⟩
  induction taken with
  | nil => rfl
  | cons c taken ih =>
    have size := ascii c (by simp)
    have others := ih fun d member => ascii d (by simp [member])
    simp only [List.length_cons, byteSize, size]
    omega

end Harvest.Text
