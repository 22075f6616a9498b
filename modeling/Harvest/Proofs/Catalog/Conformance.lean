import Harvest.Proofs.Catalog.RoundTrip
import Harvest.Proofs.Xml.Characters
import Harvest.Proofs.Xml.Normalize

/-!
# What a reader makes of a catalog

A catalog declares itself an XML 1.1 document. Its marks are escaped, so its messages can be told from
its markup whatever they hold. But all other characters are written as they are: a catalog holds a
character that no document may hold as soon as one of its strings does, and a reader gets its strings
back only as far as they have no line ends other than line feeds, and its identifiers only as far as
they have no tabs and line feeds either.
-/

namespace Harvest.Catalog

open Xml (Node Document Literal Piece readText readValue)

/-! ## Characters -/

/-- The strings of a message. -/
def stringsOf (message : Message) : List String :=
  [message.id, message.source, message.file] ++ message.meaning.toList ++ message.description.toList

/-- The strings that a catalog is made of. -/
def strings (language : String) (messages : List Message) : List String :=
  language :: messages.flatMap stringsOf

/-- A number is written in characters of names. -/
theorem isNameCharacter_of_mem_toString {n : Nat} {c : Char} (mem : c ∈ (toString n).toList) :
    Xml.isNameCharacter c = true := by
  rw [show (toString n).toList = Nat.toDigits 10 n from Nat.toList_repr] at mem
  have digit := Nat.isDigit_of_mem_toDigits (by decide) (by decide) mem
  have range : 48 ≤ c.toNat ∧ c.toNat ≤ 57 := by
    simpa [Char.isDigit, UInt32.le_iff_toNat_le] using digit
  simp [Xml.isNameCharacter, Xml.inRanges, Xml.nameStartRanges, Xml.nameExtraRanges, range]

/-- The strings of a note. -/
def noteData (origin : String) (content : Option String) : List String :=
  content.toList.flatMap fun content => [origin, "1", content]

private theorem nodeData_unit (message : Message) :
    Xml.nodeData (unit message) =
      [message.id, "location", "sourcefile", message.file, "offset", toString message.offset,
        message.source] ++ noteData "meaning" message.meaning ++
          noteData "description" message.description := by
  rcases message with ⟨_, _, _, _, _ | meaning, _ | description⟩
  all_goals rfl

/-- The strings that every catalog has in front of its language. -/
def headData : List String :=
  ["1.1", "utf-8", "1.2", "urn:oasis:names:tc:xliff:document:1.2", "typescript.file", "plaintext"]

private theorem data_document (language : String) (messages : List Message) :
    (document language messages).data =
      headData ++ language :: messages.flatMap (Xml.nodeData ∘ unit) := by
  have units : Xml.nodesData (messages.map unit) = messages.flatMap (Xml.nodeData ∘ unit) := by
    rw [Xml.nodesData_eq_flatMap, List.flatMap_map]
    rfl
  simp [Document.data, document, Xml.nodeData, Xml.nodesData, units, headData]

private theorem mem_noteData {origin string : String} {content : Option String} :
    string ∈ noteData origin content ↔
      content.isSome ∧ (string = origin ∨ string = "1") ∨ string ∈ content.toList := by
  cases content with
  | none => simp [noteData]
  | some content => simp [noteData, or_assoc]

/-- The strings of a message are all in its unit. -/
theorem stringsOf_subset (message : Message) : stringsOf message ⊆ Xml.nodeData (unit message) := by
  intro string mem
  simp only [stringsOf, List.cons_append, List.nil_append, List.mem_cons, List.mem_append] at mem
  simp only [nodeData_unit, List.cons_append, List.nil_append, List.mem_cons, List.mem_append,
    mem_noteData]
  grind

/-- What is in a unit besides: the words of its layout, and a number. -/
theorem mem_stringsOf_or_literal {message : Message} {string : String}
    (mem : string ∈ Xml.nodeData (unit message)) :
    string ∈ stringsOf message ∨ Literal string.toList := by
  have offset : Literal (toString message.offset).toList := fun c mem =>
    Xml.isLiteral_of_isNameCharacter (isNameCharacter_of_mem_toString mem)
  have fixed : ∀ string ∈ ["location", "sourcefile", "offset", "meaning", "description", "1"],
      Literal string.toList := by decide
  simp only [nodeData_unit, List.cons_append, List.nil_append, List.mem_cons, List.mem_append,
    mem_noteData] at mem
  simp only [stringsOf, List.cons_append, List.nil_append, List.mem_cons, List.mem_append]
  grind

/-- The strings of a catalog are all in its document. -/
theorem strings_subset (language : String) (messages : List Message) :
    strings language messages ⊆ (document language messages).data := by
  intro string mem
  rw [data_document]
  apply List.mem_append_right
  obtain rfl | mem := List.mem_cons.mp mem
  · exact List.mem_cons_self
  · obtain ⟨message, listed, inside⟩ := List.mem_flatMap.mp mem
    exact List.mem_cons_of_mem _
      (List.mem_flatMap.mpr ⟨message, listed, stringsOf_subset message inside⟩)

private theorem mem_strings_or_literal {language string : String} {messages : List Message}
    (mem : string ∈ (document language messages).data) :
    string ∈ strings language messages ∨ Literal string.toList := by
  have head : ∀ string ∈ headData, Literal string.toList := by decide
  rw [data_document, List.mem_append, List.mem_cons] at mem
  obtain mem | rfl | mem := mem
  · exact .inr (head string mem)
  · exact .inl List.mem_cons_self
  · obtain ⟨message, listed, inside⟩ := List.mem_flatMap.mp mem
    refine (mem_stringsOf_or_literal inside).imp_left fun own => ?_
    exact List.mem_cons_of_mem _ (List.mem_flatMap.mpr ⟨message, listed, own⟩)

/-- **Which characters a catalog holds.** Its text is made of pieces. In those that write its strings no
bracket stands bare, no quotation mark does in an attribute value, and every ampersand begins an entity.
All other characters are written as they are, so that the text holds only characters that may stand in
an XML 1.1 document exactly when its strings hold no others. -/
theorem characters_of_catalog (language : String) (messages : List Message) :
    (document language messages).render.toList =
        (document language messages).pieces.flatMap Piece.written ∧
      strings language messages ⊆ (document language messages).pieces.flatMap Piece.data ∧
      (∀ piece ∈ (document language messages).pieces, piece.Guarded) ∧
      (Literal (document language messages).render.toList ↔
        ∀ string ∈ strings language messages, Literal string.toList) := by
  refine ⟨Xml.render_eq_written _, ?_, fun piece _ => piece.guarded, ?_⟩
  · rw [Xml.data_pieces]
    exact strings_subset language messages
  · rw [Xml.literal_render_iff (regular_document language messages)]
    constructor
    · intro literal string mem
      exact literal string (strings_subset language messages mem)
    · intro literal string mem
      obtain own | plain := mem_strings_or_literal mem
      · exact literal string own
      · exact plain

/-- A message with a control character in its text. -/
def controlMessage : Message where
  id := "control"
  source := "'\x01'"
  file := "a.ts"
  offset := 0
  meaning := none
  description := none

/-- The control character stands in the catalog as it is, where XML 1.1 allows a reference only. -/
theorem control_character_not_literal :
    ¬ Literal (document "en" [controlMessage]).render.toList := by
  intro literal
  have source : controlMessage.source ∈ strings "en" [controlMessage] := by decide
  have written := (Xml.literal_render_iff (regular_document "en" [controlMessage])).mp literal
    controlMessage.source (strings_subset _ _ source)
  exact absurd written (by decide)

/-! ## Reading -/

/-- A message as a reader gets it. -/
def received (message : Message) : Message where
  id := readValue message.id
  source := readText message.source
  file := readText message.file
  offset := message.offset
  meaning := message.meaning.map readText
  description := message.description.map readText

private theorem readText_toString (n : Nat) : readText (toString n) = toString n :=
  Xml.readText_eq_self_iff.mpr fun _ mem =>
    Xml.isLineEnd_of_inner (.inl (isNameCharacter_of_mem_toString mem))

private theorem mapData_textElement (name : String) (attributes : List (String × String)) (content : String) :
    (textElement name attributes content).mapData readText readValue =
      textElement name (attributes.map fun pair => (pair.1, readValue pair.2)) (readText content) := by
  simp only [textElement, Node.mapData, Node.mapDataAll]

private theorem mapData_note {origin : String} (kept : readValue origin = origin) (content : String) :
    (note origin content).mapData readText readValue = note origin (readText content) := by
  have priority : readValue "1" = "1" := by decide
  simp only [note, mapData_textElement, List.map_cons, List.map_nil, kept, priority]

private theorem mapData_location (message : Message) :
    (location message).mapData readText readValue = location (received message) := by
  have kept : readValue "location" = "location" ∧ readValue "sourcefile" = "sourcefile" ∧
      readValue "offset" = "offset" := by decide
  simp only [location, Node.mapData, Node.mapDataAll, mapData_textElement, List.map_cons,
    List.map_nil, kept, readText_toString, received]

private theorem mapData_unit (message : Message) :
    (unit message).mapData readText readValue = unit (received message) := by
  have meaning := mapData_note (show readValue "meaning" = "meaning" by decide)
  have description := mapData_note (show readValue "description" = "description" by decide)
  rw [unit, Node.mapData, Node.mapDataAll_eq_map, List.map_append, List.map_append, unit]
  simp only [List.map_cons, List.map_nil, mapData_location, mapData_textElement, received,
    Option.toList_map, List.map_map, Function.comp_def, meaning, description]

private theorem mapData_document (language : String) (messages : List Message) :
    (document language messages).mapData readText readValue =
      document (readValue language) (messages.map received) := by
  have kept : ∀ string ∈ headData, readValue string = string := by decide
  simp only [headData, List.forall_mem_cons] at kept
  simp only [document, Document.mapData, Node.mapData, Node.mapDataAll, Node.mapDataAll_eq_map,
    List.map_cons, List.map_nil, List.map_map, Function.comp_def, mapData_unit, kept]

private theorem decode?_normalize_render (language : String) (messages : List Message) :
    decode? (Xml.normalize (document language messages).render) =
      some (readValue language, messages.map received) := by
  rw [Xml.normalize_render (regular_document language messages), mapData_document, decode?_render]

/-- A message that a reader gets as it is. -/
structure ReadAsWritten (message : Message) : Prop where
  id : ∀ c ∈ message.id.toList, Xml.isLineEnd c = false ∧ Xml.isSpacing c = false
  source : ∀ c ∈ message.source.toList, Xml.isLineEnd c = false
  file : ∀ c ∈ message.file.toList, Xml.isLineEnd c = false
  meaning : ∀ text ∈ message.meaning, ∀ c ∈ text.toList, Xml.isLineEnd c = false
  description : ∀ text ∈ message.description, ∀ c ∈ text.toList, Xml.isLineEnd c = false

private theorem map_readText_eq_self_iff {note : Option String} :
    note.map readText = note ↔ ∀ text ∈ note, ∀ c ∈ text.toList, Xml.isLineEnd c = false := by
  cases note with
  | none => simp
  | some text => simp [Xml.readText_eq_self_iff]

private theorem received_eq_self_iff {message : Message} :
    received message = message ↔ ReadAsWritten message := by
  cases message with
  | mk id source file offset meaning description =>
    rw [received, Message.mk.injEq, Xml.readValue_eq_self_iff, Xml.readText_eq_self_iff,
      Xml.readText_eq_self_iff, map_readText_eq_self_iff, map_readText_eq_self_iff]
    constructor
    · rintro ⟨plainId, plainSource, plainFile, _, plainMeaning, plainDescription⟩
      exact ⟨plainId, plainSource, plainFile, plainMeaning, plainDescription⟩
    · intro plain
      exact ⟨plain.id, plain.source, plain.file, rfl, plain.meaning, plain.description⟩

/-- **What a reader gets of a catalog.** When line ends are normalized, then attribute values, and
entities are resolved, a reader has the language and the messages with their texts and identifiers
normalized. These are the messages that were written exactly when no identifier holds a line end or a
tab and no text holds a line end other than a line feed. -/
theorem messages_as_read (language : String) (messages : List Message) :
    decode? (Xml.normalize (document language messages).render) =
        some (readValue language, messages.map received) ∧
      (messages.map received = messages ↔ ∀ message ∈ messages, ReadAsWritten message) := by
  refine ⟨decode?_normalize_render language messages, ?_⟩
  have pointwise : messages.map received = messages.map id ↔
      ∀ message ∈ messages, received message = id message := List.map_inj_left
  rw [List.map_id] at pointwise
  rw [pointwise]
  exact forall₂_congr fun message _ => received_eq_self_iff

/-- A message with the line ends of another system in its text, and a tab in its identifier. -/
def returnMessage : Message where
  id := "k\ty"
  source := "`a\r\nb`"
  file := "a.ts"
  offset := 0
  meaning := none
  description := none

/-- A message with a carriage return is made of characters that XML allows, and a parser that
follows the standard still does not give it back: the return reads as a line feed. -/
theorem return_message_not_read :
    (∀ string ∈ stringsOf returnMessage, Literal string.toList) ∧
      decode? (Xml.normalize (document "en" [returnMessage]).render) =
        some ("en", [{ returnMessage with id := "k y", source := "`a\nb`" }]) ∧
      decode? (Xml.normalize (document "en" [returnMessage]).render) ≠
        some ("en", [returnMessage]) := by
  have read := decode?_normalize_render "en" [returnMessage]
  refine ⟨by decide, ?_, ?_⟩
  · rw [read]
    decide
  · rw [read]
    decide

end Harvest.Catalog
