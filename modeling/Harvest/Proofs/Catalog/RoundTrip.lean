import Harvest.Catalog
import Harvest.Proofs.Xml.RoundTrip

/-!
# What a catalog's text tells

The text of a catalog is read as a document, and the document as a language and messages. Every
element of a catalog holds nothing, one text or elements only, so no text of a message can take the
place of a tag, of layout or of another text; and an empty note is an element that an absent one is
not.
-/

namespace Harvest.Catalog

open Xml (Node Document Opening Regular)

/-! ## Reading catalogs -/

/-- A number in decimal digits. -/
def decimal? (text : String) : Option Nat :=
  if text.toList.all Char.isDigit then some (Nat.ofDigitChars 10 text.toList 0) else none

/-- What is in an element of that name with those attributes. -/
def childrenOf? (name : String) (attributes : List (String × String)) : Node → Option (List Node)
  | .element name' attributes' children =>
    if name' = name ∧ attributes' = attributes then some children else none
  | .text _ => none

/-- The text in an element of that name with those attributes. -/
def contentOf? (name : String) (attributes : List (String × String)) (node : Node) : Option String :=
  match childrenOf? name attributes node with
  | some [.text content] => some content
  | _ => none

def noteOf? (origin : String) (node : Node) : Option String :=
  contentOf? "note" [("from", origin), ("priority", "1")] node

/-- File and offset of a message. -/
def placeOf? (node : Node) : Option (String × Nat) := do
  let [file, offset] ← childrenOf? "context-group" [("purpose", "location")] node | none
  let name ← contentOf? "context" [("context-type", "sourcefile")] file
  let digits ← contentOf? "context" [("context-type", "offset")] offset
  return (name, ← decimal? digits)

def messageOf? (node : Node) : Option Message := do
  let id ← node.attribute? "id"
  let place :: text :: notes ← childrenOf? "trans-unit" [("id", id)] node | none
  let (file, offset) ← placeOf? place
  let source ← contentOf? "source" [] text
  return {
    id, source, file, offset
    meaning := notes.findSome? (noteOf? "meaning")
    description := notes.findSome? (noteOf? "description") }

/-- The language and the messages of a catalog. -/
def contentsOf? (document : Document) : Option (String × List Message) := do
  let [file] ← childrenOf? "xliff"
    [("version", "1.2"), ("xmlns", "urn:oasis:names:tc:xliff:document:1.2")] document.root | none
  let language ← file.attribute? "source-languge"
  let [body] ← childrenOf? "file" [("original", "typescript.file"), ("datatype", "plaintext"),
    ("source-languge", language)] file | none
  let units ← childrenOf? "body" [] body
  return (language, ← units.mapM messageOf?)

/-- The language and the messages that a text tells. -/
def decode? (text : String) : Option (String × List Message) := (Xml.read? text).bind contentsOf?

/-! ## Documents -/

private theorem decimal?_toString (n : Nat) : decimal? (toString n) = some n := by
  have digits : (toString n).toList = Nat.toDigits 10 n := Nat.toList_repr
  have all : (Nat.toDigits 10 n).all Char.isDigit = true :=
    List.all_eq_true.mpr fun c mem => Nat.isDigit_of_mem_toDigits (by decide) (by decide) mem
  rw [decimal?, digits, if_pos all, Nat.ofDigitChars_ten_toDigits]

private theorem childrenOf?_element (name : String) (attributes : List (String × String))
    (children : List Node) :
    childrenOf? name attributes (.element name attributes children) = some children :=
  if_pos ⟨rfl, rfl⟩

private theorem contentOf?_textElement (name : String) (attributes : List (String × String))
    (content : String) :
    contentOf? name attributes (textElement name attributes content) = some content := by
  rw [contentOf?, textElement, childrenOf?_element]

/-- A note is found by its origin and by no other. -/
theorem noteOf?_note (origin sought content : String) :
    noteOf? sought (note origin content) = if origin = sought then some content else none := by
  by_cases same : origin = sought
  · rw [if_pos same, same]
    exact contentOf?_textElement _ _ content
  · simp [noteOf?, contentOf?, childrenOf?, note, textElement, same]

private theorem placeOf?_location (message : Message) :
    placeOf? (location message) = some (message.file, message.offset) := by
  simp only [placeOf?, location, childrenOf?_element, contentOf?_textElement, decimal?_toString,
    Option.bind_eq_bind, Option.bind_some, Option.pure_def]

private theorem messageOf?_unit (message : Message) : messageOf? (unit message) = some message := by
  have id : (unit message).attribute? "id" = some message.id := by
    simp [unit, Node.attribute?]
  have children : childrenOf? "trans-unit" [("id", message.id)] (unit message) =
      some (location message :: textElement "source" [] message.source ::
        ((message.meaning.map (note "meaning")).toList ++
          (message.description.map (note "description")).toList)) :=
    childrenOf?_element _ _ _
  simp only [messageOf?, id, children, placeOf?_location, contentOf?_textElement,
    Option.bind_eq_bind, Option.bind_some, Option.pure_def]
  rcases message with ⟨_, _, _, _, _ | meaning, _ | description⟩
  all_goals simp [noteOf?_note]

private theorem contentsOf?_document (language : String) (messages : List Message) :
    contentsOf? (document language messages) = some (language, messages) := by
  have each : (messages.map unit).mapM messageOf? = some messages := by
    induction messages with
    | nil => rfl
    | cons message more ih =>
      simp [messageOf?_unit, ih]
  simp [contentsOf?, document, childrenOf?_element, Node.attribute?, each]

/-! ## Texts -/

/-- The names in an opening tag, whatever the values of its attributes are. -/
theorem named_of_names {start : Opening} (names : List String)
    (listed : start.name :: start.attributes.map Prod.fst = names)
    (all : names.all Xml.isName = true) : start.Named := by
  rw [← listed] at all
  have each := List.all_eq_true.mp all
  refine ⟨each _ List.mem_cons_self, fun pair mem => ?_⟩
  exact each _ (List.mem_cons_of_mem _ (List.mem_map_of_mem mem))

private theorem regular_note (origin content : String) : Regular (note origin content) :=
  .text ⟨"note", _⟩ (named_of_names ["note", "from", "priority"] rfl (by decide)) content

private theorem regular_location (message : Message) : Regular (location message) := by
  refine .elements ⟨"context-group", _⟩
    (named_of_names ["context-group", "purpose"] rfl (by decide)) fun child mem => ?_
  have context : (Opening.mk "context" [("context-type", "sourcefile")]).Named ∧
      (Opening.mk "context" [("context-type", "offset")]).Named :=
    ⟨named_of_names ["context", "context-type"] rfl (by decide),
      named_of_names ["context", "context-type"] rfl (by decide)⟩
  obtain rfl | mem := List.mem_cons.mp mem
  · exact .text _ context.1 message.file
  · obtain rfl := List.mem_singleton.mp mem
    exact .text _ context.2 (toString message.offset)

private theorem regular_unit (message : Message) : Regular (unit message) := by
  refine .elements ⟨"trans-unit", _⟩ (named_of_names ["trans-unit", "id"] rfl (by decide))
    fun child mem => ?_
  obtain rfl | rfl | meaning | description :
      child = location message ∨ child = textElement "source" [] message.source ∨
        child ∈ message.meaning.map (note "meaning") ∨
          child ∈ message.description.map (note "description") := by
    simpa [or_assoc] using mem
  · exact regular_location message
  · exact .text ⟨"source", []⟩ (named_of_names ["source"] rfl (by decide)) message.source
  · obtain ⟨content, _, rfl⟩ := Option.map_eq_some_iff.mp meaning
    exact regular_note _ content
  · obtain ⟨content, _, rfl⟩ := Option.map_eq_some_iff.mp description
    exact regular_note _ content

private theorem regular_body (messages : List Message) :
    Regular (.element "body" [] (messages.map unit)) := by
  have named : (Opening.mk "body" []).Named := named_of_names ["body"] rfl (by decide)
  cases messages with
  | nil => exact .empty _ named
  | cons message more =>
    refine .elements _ named fun child mem => ?_
    obtain ⟨one, _, rfl⟩ := List.mem_map.mp (show child ∈ (message :: more).map unit from mem)
    exact regular_unit one

/-- Every element of a catalog holds nothing, one text or only elements. -/
theorem regular_document (language : String) (messages : List Message) :
    Regular (document language messages).root := by
  refine .elements ⟨"xliff", _⟩ (named_of_names ["xliff", "version", "xmlns"] rfl (by decide))
    fun file memFile => ?_
  obtain rfl := List.mem_singleton.mp memFile
  refine .elements ⟨"file", _⟩
    (named_of_names ["file", "original", "datatype", "source-languge"] rfl (by decide))
    fun body memBody => ?_
  obtain rfl := List.mem_singleton.mp memBody
  exact regular_body messages

/-- A rendered catalog decodes to the language and the messages it was made of. -/
theorem decode?_render (language : String) (messages : List Message) :
    decode? (document language messages).render = some (language, messages) := by
  rw [decode?, Xml.read?_render (regular_document language messages), Option.bind_some,
    contentsOf?_document]

/-- The text of a catalog tells the whole of its document, its language and its messages, whatever
they hold; so no two catalogs have the same text. -/
theorem text_determines_contents :
    (∀ (language : String) (messages : List Message),
      Xml.read? (document language messages).render = some (document language messages) ∧
        decode? (document language messages).render = some (language, messages)) ∧
      Function.Injective fun contents : String × List Message =>
        (document contents.1 contents.2).render := by
  refine ⟨fun language messages => ⟨?_, decode?_render language messages⟩, ?_⟩
  · exact Xml.read?_render (regular_document language messages)
  · intro first second same
    have decoded := congrArg decode? same
    simp only [decode?_render] at decoded
    exact Option.some.inj decoded

end Harvest.Catalog
