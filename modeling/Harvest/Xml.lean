/-!
# XML documents

Trees of elements and text, and their layout: two spaces for each level of nesting, an element with
nothing in it closed at once, text on the line of its element, no line end behind the document.
-/

namespace Harvest.Xml

/-- A node of a document. -/
inductive Node where
  | text (content : String)
  | element (name : String) (attributes : List (String × String)) (children : List Node)
  deriving Repr

/-- A document: what its declaration says, and its outermost element. -/
structure Document where
  version : String
  encoding : String
  root : Node

namespace Node

/-- The value of an attribute: the first of that name. -/
def attribute? : Node → String → Option String
  | .element _ attributes _, name => (attributes.find? fun a => a.1 == name).map Prod.snd
  | .text _, _ => none

def isElement : Node → Bool
  | .element .. => true
  | .text _ => false

/-- The name of an element. -/
def name? : Node → Option String
  | .element name .. => some name
  | .text _ => none

def children : Node → List Node
  | .element _ _ children => children
  | .text _ => []

/-- The elements directly inside of an element. -/
def elements (node : Node) : List Node := node.children.filter isElement

end Node

/-! ## Escapes -/

/-- A character of text: markup is written as an entity. -/
def escapeTextCharacter (c : Char) : List Char :=
  if c == '&' then "&amp;".toList
  else if c == '<' then "&lt;".toList
  else if c == '>' then "&gt;".toList
  else [c]

/-- A character of an attribute value that is escaped as text already. -/
def escapeQuote (c : Char) : List Char :=
  if c == '\x22' then "&quot;".toList else [c]

def escapeTextChars (text : List Char) : List Char := text.flatMap escapeTextCharacter

def escapeAttributeChars (value : List Char) : List Char := (escapeTextChars value).flatMap escapeQuote

/-- Text as it stands between tags. -/
def escapeText (text : String) : String := String.ofList (escapeTextChars text.toList)

/-- Text as it stands between the quotation marks of an attribute. -/
def escapeAttribute (value : String) : String := String.ofList (escapeAttributeChars value.toList)

/-! ## Layout -/

/-- A line end and the blanks of a level of nesting. -/
def newLine (depth : Nat) : List Char := '\n' :: List.replicate (2 * depth) ' '

/-- A name and its value, behind a blank. -/
def renderAttribute (pair : String × String) : List Char :=
  ' ' :: (pair.1.toList ++ '=' :: '\x22' :: (escapeAttributeChars pair.2.toList ++ ['\x22']))

mutual

/-- A node at a level of nesting. -/
def renderNode (depth : Nat) : Node → List Char
  | .text content => escapeTextChars content.toList
  | .element name attributes children =>
    let opening := '<' :: (name.toList ++ attributes.flatMap renderAttribute)
    if children.isEmpty then opening ++ ['/', '>']
    else
      let closing := '<' :: '/' :: (name.toList ++ ['>'])
      let last := if children.any Node.isElement then newLine depth else []
      opening ++ '>' :: (renderNodes depth children ++ last ++ closing)

/-- The nodes inside of an element at a level of nesting; elements start on lines of their own. -/
def renderNodes (depth : Nat) : List Node → List Char
  | [] => []
  | node :: more =>
    let start := if node.isElement then newLine (depth + 1) else []
    start ++ renderNode (depth + 1) node ++ renderNodes depth more

end

/-- The declaration in front of a document. -/
def renderDeclaration (version encoding : String) : List Char :=
  "<?xml".toList ++ renderAttribute ("version", version) ++ renderAttribute ("encoding", encoding) ++
    ['?', '>']

/-- The text of a document. -/
def Document.render (document : Document) : String :=
  String.ofList (renderDeclaration document.version document.encoding ++ newLine 0 ++
    renderNode 0 document.root)

end Harvest.Xml
