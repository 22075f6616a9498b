import Harvest.Proofs.Xml.RoundTrip

/-!
# What a layout holds

The tags of a document are nested: every closing tag names the element that was opened last and is still
open, and none is left open. The reader finds this out on its way, since it keeps the open elements from
tag to tag, so every text that it reads is balanced. The layout of a document is one of many texts that
hold it. They differ by the blanks between their tags, and the reader gives the same document for all of
them.
-/

namespace Harvest.Xml

/-! ## Balanced tags -/

/-- The tag at the end of a piece, which is a text and a tag without the bracket that ends it. -/
def tagOf? (piece : List Char) : Option Tag :=
  match piece.splitOn '<' with
  | [_, tag] => tag? tag
  | _ => none

/-- The tags of a document behind its declaration, in their order. -/
def tags? (text : String) : Option (List Tag) := (text.toList.splitOn '>').tail.dropLast.mapM tagOf?

/-- The names of the elements that are open behind a tag, from the inside out. A closing tag has to name
the innermost of those that are open in front of it. -/
def nest? (opened : List String) : Tag → Option (List String)
  | .opening start => some (start.name :: opened)
  | .empty _ => some opened
  | .closing name => if opened.head? = some name then some opened.tail else none

/-- Every closing tag belongs to the innermost open element, and no element stays open. -/
def Balanced (text : String) : Prop := ∃ tags, tags? text = some tags ∧ tags.foldlM nest? [] = some []

/-- The names of the elements around a place, from the inside out. -/
def Place.names (place : Place) : List String := place.around.map (·.start.name)

namespace Place

variable {place after : Place} {text piece : List Char}

private theorem nest?_of_pass? {tag : Tag} (passed : place.pass? text tag = some after) :
    nest? place.names tag = some after.names := by
  cases tag with
  | opening start =>
    obtain ⟨_, reached⟩ := Option.ite_none_right_eq_some.mp passed
    cases reached
    rfl
  | empty start =>
    obtain ⟨_, reached⟩ := Option.ite_none_right_eq_some.mp passed
    cases reached
    rfl
  | closing name =>
    obtain ⟨before, around⟩ := place
    cases around with
    | nil => cases passed
    | cons opened around =>
      obtain ⟨same, closed⟩ := Option.ite_none_right_eq_some.mp passed
      obtain ⟨content, _, rfl⟩ := Option.map_eq_some_iff.mp closed
      simp [nest?, names, same]

/-- **Step lemma.** A piece that is read ends with a tag that fits the elements around it. -/
theorem nest?_of_step? (read : place.step? piece = some after) :
    ∃ tag, tagOf? piece = some tag ∧ nest? place.names tag = some after.names := by
  unfold step? at read
  unfold tagOf?
  generalize piece.splitOn '<' = parts at read ⊢
  rcases parts with _ | ⟨front, _ | ⟨inner, _ | ⟨third, more⟩⟩⟩
  · cases read
  · cases read
  · obtain ⟨tag, isTag, passed⟩ := Option.bind_eq_some_iff.mp read
    exact ⟨tag, isTag, nest?_of_pass? passed⟩
  · cases read

/-- **Run lemma.** The tags of pieces that are read lead from the elements around the first place to
those around the last. -/
theorem nest?_of_run? {pieces : List (List Char)} (read : place.run? pieces = some after) :
    ∃ tags, pieces.dropLast.mapM tagOf? = some tags ∧
      tags.foldlM nest? place.names = some after.names := by
  induction pieces generalizing place with
  | nil => cases read
  | cons piece pieces ih =>
    cases pieces with
    | nil =>
      obtain ⟨_, reached⟩ := Option.ite_none_right_eq_some.mp read
      cases reached
      exact ⟨[], rfl, rfl⟩
    | cons next more =>
      obtain ⟨between, step, rest⟩ := Option.bind_eq_some_iff.mp read
      obtain ⟨tag, isTag, fits⟩ := nest?_of_step? step
      obtain ⟨tags, areTags, nested⟩ := ih rest
      refine ⟨tag :: tags, ?_, ?_⟩
      · rw [List.dropLast_cons_cons, List.mapM_cons, isTag, areTags]
        rfl
      · rw [List.foldlM_cons, fits]
        exact nested

end Place

/-- What is read as a document is balanced. -/
theorem balanced_of_read? {text : String} {document : Document} (read : read? text = some document) :
    Balanced text := by
  unfold Balanced tags?
  unfold read? at read
  generalize text.toList.splitOn '>' = pieces at read ⊢
  split at read
  · rename_i declaration more
    obtain ⟨_, _, behind⟩ := Option.bind_eq_some_iff.mp read
    obtain ⟨⟨before, around⟩, run, ended⟩ := Option.bind_eq_some_iff.mp behind
    obtain ⟨tags, areTags, nested⟩ := Place.nest?_of_run? run
    -- the reader ends behind one element, with nothing open
    have closed : around = [] := by
      split at ended
      · rename_i root same
        cases same
        rfl
      · cases ended
    rw [closed] at nested
    exact ⟨tags, areTags, nested⟩
  · cases read

/-! ## Layouts -/

/-- **The layout of a document holds the document and nothing else.** Let the names in a document be
names, and let every element of it, at any depth, hold nothing, one text or elements only. Reading its
layout gives the document back, with its declaration, its names, the values of its attributes and its
texts, character by character and in their order; the tags of the layout are balanced; and any other
text with the same tags and contents and other blanks between the tags is read as the same document. -/
theorem document_reads_back {document : Document} (regular : Regular document.root) :
    read? document.render = some document ∧ Balanced document.render ∧
      ∀ text trail, Laid [document.root] text → isBlank trail = true →
        read? (String.ofList
          (renderDeclaration document.version document.encoding ++ text ++ trail)) =
            some document := by
  have read := read?_render regular
  refine ⟨read, balanced_of_read? read, fun text trail laid blank => ?_⟩
  exact read?_declaration document.version document.encoding laid blank

/-- Elements with nothing, an empty text, blanks and a text like markup in them. -/
def sampleDocument : Document where
  version := "1.1"
  encoding := "utf-8"
  root := .element "list" [("title", "say \"<hi>\" & bye"), ("title", "")] [
    .element "item" [] [],
    .element "item" [] [.text ""],
    .element "group" [] [.element "item" [] [.text "\n  "]],
    .element "item" [] [.text "</item>&amp;<item/>"]]

private theorem regular_sampleDocument : Regular sampleDocument.root := by
  have item : (Opening.mk "item" []).Named := ⟨by decide, by simp⟩
  refine .elements ⟨"list", _⟩ ⟨by decide, ?_⟩ ?_
  · simp only [List.forall_mem_cons]
    decide
  simp only [List.forall_mem_cons]
  refine ⟨.empty _ item, .text _ item "", ?_, .text _ item "</item>&amp;<item/>", by simp⟩
  refine .elements ⟨"group", []⟩ ⟨by decide, by simp⟩ ?_
  simp only [List.forall_mem_cons]
  exact ⟨.text _ item "\n  ", by simp⟩

/-- The document is read from its layout, and from that of an element seven levels deep. -/
theorem sampleDocument_reads_back :
    Regular sampleDocument.root ∧ read? sampleDocument.render = some sampleDocument ∧
      Balanced sampleDocument.render ∧
      Laid [sampleDocument.root] (['\t'] ++ (renderNode 7 sampleDocument.root ++ [])) ∧
      read? (String.ofList (renderDeclaration "1.1" "utf-8" ++
        (['\t'] ++ (renderNode 7 sampleDocument.root ++ [])) ++ ['\n'])) = some sampleDocument := by
  obtain ⟨read, balanced, others⟩ := document_reads_back regular_sampleDocument
  have laid := regular_sampleDocument.laid 7 (show isBlank ['\t'] = true by decide) .nil
  exact ⟨regular_sampleDocument, read, balanced, laid, others _ _ laid (by decide)⟩

end Harvest.Xml
