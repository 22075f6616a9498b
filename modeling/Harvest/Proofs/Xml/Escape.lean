import Harvest.Xml

/-!
# Escapes and their undoing

An escape writes some characters as entities and all others as they are. Which ones it does is a table:
the marks of a text, and in an attribute value the quotation mark too. The laws of escapes hold for every
table that has the ampersand among its marks and whose entities are an ampersand with no mark behind it.
No other mark is left in an escaped text. An ampersand in it begins an entity that was written there, even
if the text itself looked like an entity before, so replacing the entities from the left gives the text
back.

The first pass over an attribute value makes no quotation mark, so the two passes are one map over the
characters.
-/

namespace Harvest.Xml

/-- Replaces the entities of a text, each once and from the left. -/
def unescape : List Char → List Char
  | '&' :: 'a' :: 'm' :: 'p' :: ';' :: rest => '&' :: unescape rest
  | '&' :: 'l' :: 't' :: ';' :: rest => '<' :: unescape rest
  | '&' :: 'g' :: 't' :: ';' :: rest => '>' :: unescape rest
  | '&' :: 'q' :: 'u' :: 'o' :: 't' :: ';' :: rest => '\x22' :: unescape rest
  | c :: rest => c :: unescape rest
  | [] => []

/-- A character of an attribute value, escaped in one step. -/
def escapeAttributeCharacter (c : Char) : List Char :=
  if c == '\x22' then "&quot;".toList else escapeTextCharacter c

/-- No bracket of a tag stands in the text. -/
def Unbracketed (text : List Char) : Prop := ∀ c ∈ text, c ≠ '<' ∧ c ≠ '>'

instance (text : List Char) : Decidable (Unbracketed text) :=
  decidable_of_iff (text.all (fun c => c != '<' && c != '>') = true) (by simp [Unbracketed])

private theorem unescape_cons {c : Char} (plain : c ≠ '&') (rest : List Char) :
    unescape (c :: rest) = c :: unescape rest := by
  rw [unescape]
  -- the four side goals say that the text begins with no entity
  all_goals
    intro _ amp
    exact absurd amp plain

/-! ## Tables of entities -/

/-- The marks of a text and their entities. -/
def textEntities : List (Char × String) := [('&', "&amp;"), ('<', "&lt;"), ('>', "&gt;")]

/-- The marks of an attribute value and their entities. -/
def valueEntities : List (Char × String) := ('\x22', "&quot;") :: textEntities

/-- A character as it is written with a table: as its entity if it is a mark, as itself otherwise. -/
def substitute (entities : List (Char × String)) (c : Char) : List Char :=
  ((entities.lookup c).map String.toList).getD [c]

/-- The entities of a table can be told from all else that is written with it. -/
structure Unambiguous (entities : List (Char × String)) : Prop where
  isMark : (entities.lookup '&').isSome = true
  /-- An entity is an ampersand with no mark behind it. -/
  led : ∀ pair ∈ entities, ∃ name, pair.2.toList = '&' :: name ∧ ∀ other ∈ entities, other.1 ∉ name
  /-- An entity is replaced by its mark. -/
  replaced : ∀ pair ∈ entities, ∀ rest, unescape (pair.2.toList ++ rest) = pair.1 :: unescape rest

private theorem unambiguous_textEntities : Unambiguous textEntities where
  isMark := by decide
  led := by simp [textEntities]
  replaced := by simp [textEntities, unescape]

private theorem unambiguous_valueEntities : Unambiguous valueEntities where
  isMark := by decide
  led := by simp [valueEntities, textEntities]
  replaced := by simp [valueEntities, textEntities, unescape]

/-- A character behind a stretch that does not have it. -/
theorem exists_of_append_eq {c : Char} {name rest before after : List Char} (apart : c ∉ name)
    (cut : name ++ rest = before ++ c :: after) :
    ∃ ahead, before = name ++ ahead ∧ rest = ahead ++ c :: after := by
  rcases List.append_eq_append_iff.mp cut with found | ⟨between, rfl, follows⟩
  · exact found
  · cases between with
    | nil => exact ⟨[], by simp, by simpa using follows.symm⟩
    | cons first between =>
      obtain ⟨rfl, _⟩ := List.cons.inj follows
      simp at apart

namespace Unambiguous

variable {entities : List (Char × String)} {c : Char} {text before after : List Char}

/-- A character is a mark and is written as its entity, or stands for itself and is no ampersand. -/
theorem substitute_cases (table : Unambiguous entities) (c : Char) :
    (∃ entity, (c, entity) ∈ entities ∧ substitute entities c = entity.toList) ∨
      ((∀ pair ∈ entities, pair.1 ≠ c) ∧ c ≠ '&' ∧ substitute entities c = [c]) := by
  unfold substitute
  cases found : entities.lookup c with
  | some entity =>
    obtain ⟨front, back, split, _⟩ := List.lookup_eq_some_iff.mp found
    exact .inl ⟨entity, by simp [split], rfl⟩
  | none =>
    refine .inr ⟨fun pair member same => ?_, fun amp => ?_, rfl⟩
    · have differs := List.lookup_eq_none_iff.mp found pair member
      simp [same] at differs
    · have isMark := table.isMark
      rw [← amp, found] at isMark
      cases isMark

private theorem mark_not_mem (table : Unambiguous entities) {pair : Char × String} (member : pair ∈ entities)
    (notAmp : pair.1 ≠ '&') (text : List Char) : pair.1 ∉ text.flatMap (substitute entities) := by
  intro there
  obtain ⟨c, _, inside⟩ := List.mem_flatMap.mp there
  obtain ⟨entity, known, written⟩ | ⟨noMark, _, itself⟩ := table.substitute_cases c
  · obtain ⟨name, spelled, unmarked⟩ := table.led _ known
    rw [written, spelled] at inside
    rcases List.mem_cons.mp inside with amp | later
    · exact notAmp amp
    · exact unmarked pair member later
  · rw [itself, List.mem_singleton] at inside
    exact noMark pair member inside

/-- The ampersand of an entity is the only one in it. -/
theorem not_mem_name (table : Unambiguous entities) {pair : Char × String} (member : pair ∈ entities) :
    ∃ name, pair.2.toList = '&' :: name ∧ '&' ∉ name := by
  obtain ⟨name, spelled, unmarked⟩ := table.led pair member
  obtain ⟨entity, found⟩ := Option.isSome_iff_exists.mp table.isMark
  obtain ⟨front, back, split, _⟩ := List.lookup_eq_some_iff.mp found
  exact ⟨name, spelled, unmarked ('&', entity) (by simp [split])⟩

/-- An ampersand is the first of what is written for a character, or stands behind all of that. -/
theorem begins_or_passes (table : Unambiguous entities) {rest : List Char}
    (cut : substitute entities c ++ rest = before ++ '&' :: after) :
    (before = [] ∧ ∃ entity, (c, entity) ∈ entities ∧ substitute entities c = entity.toList) ∨
      ∃ ahead, before = substitute entities c ++ ahead ∧ rest = ahead ++ '&' :: after := by
  obtain ⟨entity, known, written⟩ | ⟨_, notAmp, itself⟩ := table.substitute_cases c
  · cases before with
    | nil => exact .inl ⟨rfl, entity, known, written⟩
    | cons first before =>
      obtain ⟨name, spelled, single⟩ := table.not_mem_name known
      rw [written, spelled] at cut ⊢
      obtain ⟨rfl, behind⟩ := List.cons.inj cut
      obtain ⟨ahead, rfl, follows⟩ := exists_of_append_eq single behind
      exact .inr ⟨ahead, rfl, follows⟩
  · rw [itself] at cut ⊢
    exact .inr (exists_of_append_eq (by simp [notAmp.symm]) cut)

/-- An escaped text can be cut at each of its ampersands. -/
theorem exists_mark_of_ampersand (table : Unambiguous entities)
    (cut : text.flatMap (substitute entities) = before ++ '&' :: after) :
    ∃ front back, ∃ pair ∈ entities, text = front ++ pair.1 :: back ∧
      before = front.flatMap (substitute entities) ∧
      '&' :: after = pair.2.toList ++ back.flatMap (substitute entities) := by
  induction text generalizing before with
  | nil => simp at cut
  | cons c rest ih =>
    rw [List.flatMap_cons] at cut
    obtain ⟨rfl, entity, known, written⟩ | ⟨ahead, rfl, behind⟩ := table.begins_or_passes cut
    · rw [written] at cut
      exact ⟨[], rest, (c, entity), known, rfl, rfl, cut.symm⟩
    · obtain ⟨front, back, pair, member, rfl, rfl, follows⟩ := ih behind
      exact ⟨c :: front, back, pair, member, rfl, List.flatMap_cons.symm, follows⟩

private theorem unescape_substitute (table : Unambiguous entities) (c : Char) (rest : List Char) :
    unescape (substitute entities c ++ rest) = c :: unescape rest := by
  obtain ⟨entity, known, written⟩ | ⟨_, notAmp, itself⟩ := table.substitute_cases c
  · rw [written]
    exact table.replaced _ known rest
  · rw [itself]
    exact unescape_cons notAmp rest

private theorem unescape_flatMap (table : Unambiguous entities) (text : List Char) :
    unescape (text.flatMap (substitute entities)) = text := by
  induction text with
  | nil => rfl
  | cons c rest ih => rw [List.flatMap_cons, table.unescape_substitute, ih]

end Unambiguous

/-! ## The two escapes -/

/-- A character either has an entity in texts or stands for itself. -/
theorem marked_or_plain (c : Char) :
    c = '&' ∨ c = '<' ∨ c = '>' ∨
      (c ≠ '&' ∧ c ≠ '<' ∧ c ≠ '>' ∧ escapeTextCharacter c = [c]) := by
  by_cases amp : c = '&'
  · exact .inl amp
  by_cases lt : c = '<'
  · exact .inr (.inl lt)
  by_cases gt : c = '>'
  · exact .inr (.inr (.inl gt))
  · exact .inr (.inr (.inr ⟨amp, lt, gt, by simp [escapeTextCharacter, amp, lt, gt]⟩))

private theorem escapeTextCharacter_eq_substitute (c : Char) :
    escapeTextCharacter c = substitute textEntities c := by
  obtain rfl | rfl | rfl | ⟨amp, lt, gt, itself⟩ := marked_or_plain c
  · rfl
  · rfl
  · rfl
  · have plain : textEntities.lookup c = none :=
      List.lookup_eq_none_iff.mpr (by simp [textEntities, amp, lt, gt])
    rw [itself, substitute, plain]
    rfl

private theorem escapeAttributeCharacter_eq_substitute (c : Char) :
    escapeAttributeCharacter c = substitute valueEntities c := by
  unfold escapeAttributeCharacter
  by_cases quote : c = '\x22'
  · rw [quote]
    rfl
  · have apart : (c == '\x22') = false := beq_eq_false_iff_ne.mpr quote
    rw [apart, escapeTextCharacter_eq_substitute, substitute, substitute, valueEntities,
      List.lookup_cons, apart]
    rfl

private theorem flatMap_escapeQuote (c : Char) :
    (escapeTextCharacter c).flatMap escapeQuote = escapeAttributeCharacter c := by
  obtain rfl | rfl | rfl | ⟨_, _, _, itself⟩ := marked_or_plain c
  · rfl
  · rfl
  · rfl
  · rw [escapeAttributeCharacter, itself, List.flatMap_singleton, escapeQuote]

/-- A value is escaped one character at a time. -/
theorem escapeAttributeChars_eq_flatMap (value : List Char) :
    escapeAttributeChars value = value.flatMap escapeAttributeCharacter := by
  simp only [escapeAttributeChars, escapeTextChars, List.flatMap_assoc, flatMap_escapeQuote]

private theorem escapeTextChars_eq_substitute (text : List Char) :
    escapeTextChars text = text.flatMap (substitute textEntities) := by
  rw [escapeTextChars, funext escapeTextCharacter_eq_substitute]

private theorem escapeAttributeChars_eq_substitute (value : List Char) :
    escapeAttributeChars value = value.flatMap (substitute valueEntities) := by
  rw [escapeAttributeChars_eq_flatMap, funext escapeAttributeCharacter_eq_substitute]

/-- Unescaping an escaped text gives the text back. -/
theorem unescape_escapeTextChars (text : List Char) : unescape (escapeTextChars text) = text := by
  rw [escapeTextChars_eq_substitute]
  exact unambiguous_textEntities.unescape_flatMap text

/-- Unescaping an escaped value gives the value back. -/
theorem unescape_escapeAttributeChars (value : List Char) :
    unescape (escapeAttributeChars value) = value := by
  rw [escapeAttributeChars_eq_substitute]
  exact unambiguous_valueEntities.unescape_flatMap value

/-- No bracket is left by an escape that has the brackets among its marks. -/
theorem Unambiguous.unbracketed {entities : List (Char × String)} (table : Unambiguous entities)
    (brackets : ('<', "&lt;") ∈ entities ∧ ('>', "&gt;") ∈ entities) (text : List Char) :
    Unbracketed (text.flatMap (substitute entities)) := by
  intro c there
  refine ⟨?_, ?_⟩
  · rintro rfl
    exact table.mark_not_mem brackets.1 (by decide) text there
  · rintro rfl
    exact table.mark_not_mem brackets.2 (by decide) text there

/-- An escaped text has no bracket in it. -/
theorem unbracketed_escapeTextChars (text : List Char) : Unbracketed (escapeTextChars text) := by
  rw [escapeTextChars_eq_substitute]
  exact unambiguous_textEntities.unbracketed (by decide) text

/-- An escaped value has no bracket in it. -/
theorem unbracketed_escapeAttributeChars (value : List Char) :
    Unbracketed (escapeAttributeChars value) := by
  rw [escapeAttributeChars_eq_substitute]
  exact unambiguous_valueEntities.unbracketed (by decide) value

/-- An escaped value does not end its own attribute. -/
theorem quote_not_mem_escapeAttributeChars (value : List Char) :
    '\x22' ∉ escapeAttributeChars value := by
  rw [escapeAttributeChars_eq_substitute]
  exact unambiguous_valueEntities.mark_not_mem List.mem_cons_self (by decide) value

/-! ## The laws of escapes -/

/-- What is promised of an escape that writes the marks of a table as their entities. -/
structure EscapesBy (escape : String → String) (entities : List (Char × String)) : Prop where
  /-- One pass over the characters is all that the escape does. -/
  onePass : ∀ text, escape text = String.ofList (text.toList.flatMap (substitute entities))
  /-- No mark is left, ampersands apart. -/
  bare : ∀ text, ∀ pair ∈ entities, pair.1 ≠ '&' → pair.1 ∉ (escape text).toList
  /-- An ampersand begins the entity of a mark of the text. What stands in front of the ampersand and
  behind the entity is what is written for the text in front of that mark and behind it. -/
  ampersand : ∀ text before after, (escape text).toList = before ++ '&' :: after →
    ∃ front back, ∃ pair ∈ entities, text = front ++ String.singleton pair.1 ++ back ∧
      before = (escape front).toList ∧ '&' :: after = pair.2.toList ++ (escape back).toList
  append : ∀ text more, escape (text ++ more) = escape text ++ escape more
  /-- Replacing each entity once, from the left, gives back the text. -/
  undone : ∀ text, String.ofList (unescape (escape text).toList) = text

/-- **The laws of escapes.** They hold for every table of entities that can be told from all else. -/
theorem Unambiguous.escapesBy {entities : List (Char × String)} (table : Unambiguous entities)
    {escape : String → String}
    (onePass : ∀ text, escape text = String.ofList (text.toList.flatMap (substitute entities))) :
    EscapesBy escape entities where
  onePass := onePass
  bare text pair member notAmp := by
    rw [onePass, String.toList_ofList]
    exact table.mark_not_mem member notAmp text.toList
  ampersand text before after cut := by
    rw [onePass, String.toList_ofList] at cut
    obtain ⟨front, back, pair, member, split, ahead, follows⟩ := table.exists_mark_of_ampersand cut
    refine ⟨String.ofList front, String.ofList back, pair, member, ?_, ?_, ?_⟩
    · rw [← String.toList_inj, split]
      simp
    · rw [onePass, String.toList_ofList, String.toList_ofList, ahead]
    · rw [onePass, String.toList_ofList, String.toList_ofList, follows]
  append text more := by
    rw [onePass, onePass, onePass, String.toList_append, List.flatMap_append, String.ofList_append]
  undone text := by
    rw [onePass, String.toList_ofList, table.unescape_flatMap, String.ofList_toList]

/-- **Escapes are exact and can be undone.** Both escapes write the marks of their table as entities in one
pass, the one of attribute values too, which is made of two; neither leaves a mark or an ampersand that
begins no entity of its own; both go through a text part by part; and replacing the entities once gives
back every text, whatever it looks like. -/
theorem escapes_by_entities :
    EscapesBy escapeText textEntities ∧ EscapesBy escapeAttribute valueEntities := by
  refine ⟨unambiguous_textEntities.escapesBy fun text => ?_,
    unambiguous_valueEntities.escapesBy fun value => ?_⟩
  · rw [escapeText, escapeTextChars_eq_substitute]
  · rw [escapeAttribute, escapeAttributeChars_eq_substitute]

-- Entities in a text are escaped like any other part of it.
example : escapeAttribute "&amp;quot;\x22" = "&amp;amp;quot;&quot;" := by decide

end Harvest.Xml
