import Harvest.Proofs.Xml.RoundTrip

/-!
# The characters of a document

The layout of a document is made of pieces: markup, texts and attribute values. No mark of a text or
a value stands bare in its piece. All else is written as it is, and XML 1.1 does not allow every
character to be: some have to be written as references, and some cannot be written at all. So a layout
holds such a character exactly when one of the strings of its document does.
-/

namespace Harvest.Xml

/-! ## Characters that may stand in a document -/

/-- The ranges of characters of a document, as XML 1.1 lists them. -/
def characterRanges : List (Nat × Nat) := [(0x1, 0xD7FF), (0xE000, 0xFFFD), (0x10000, 0x10FFFF)]

/-- The ranges of those characters that are allowed as references only. -/
def restrictedRanges : List (Nat × Nat) :=
  [(0x1, 0x8), (0xB, 0xC), (0xE, 0x1F), (0x7F, 0x84), (0x86, 0x9F)]

/-- The character may stand in a document as it is. -/
def isLiteral (c : Char) : Bool := inRanges characterRanges c && !inRanges restrictedRanges c

/-- All characters of a text may stand in a document as they are. -/
def Literal (text : List Char) : Prop := ∀ c ∈ text, isLiteral c = true

instance (text : List Char) : Decidable (Literal text) :=
  decidable_of_iff (text.all isLiteral = true) List.all_eq_true

private theorem literal_append {front back : List Char} :
    Literal (front ++ back) ↔ Literal front ∧ Literal back :=
  List.forall_mem_append

/-- The characters of names are allowed in a document as they are. -/
theorem isLiteral_of_isNameCharacter {c : Char} (inName : isNameCharacter c = true) :
    isLiteral c = true := by
  simp only [isNameCharacter, inRanges, nameStartRanges, nameExtraRanges, List.cons_append,
    List.nil_append, List.any_cons, List.any_nil, Bool.or_false, Bool.or_eq_true, Bool.and_eq_true,
    decide_eq_true_eq] at inName
  simp only [isLiteral, inRanges, characterRanges, restrictedRanges, List.any_cons, List.any_nil,
    Bool.or_false, Bool.not_or, Bool.not_and, Bool.and_eq_true, Bool.or_eq_true,
    Bool.not_eq_eq_eq_not, Bool.not_true, decide_eq_true_eq, decide_eq_false_iff_not]
  omega

private theorem literal_of_isName {name : String} (named : isName name = true) : Literal name.toList := by
  intro c mem
  simp only [isName, Bool.and_eq_true, List.all_eq_true] at named
  exact isLiteral_of_isNameCharacter (named.2 c mem)

/-! ## Pieces -/

/-- What a layout is made of. -/
inductive Piece where
  | markup (written : List Char)
  | text (content : String)
  | value (content : String)

namespace Piece

/-- A piece as it stands in the layout. -/
def written : Piece → List Char
  | .markup written => written
  | .text content => escapeTextChars content.toList
  | .value content => escapeAttributeChars content.toList

/-- The strings of the document that a piece writes: one, or none if it is markup. -/
def data : Piece → List String
  | .markup _ => []
  | .text content => [content]
  | .value content => [content]

end Piece

def attributePieces (pair : String × String) : List Piece :=
  [.markup (' ' :: (pair.1.toList ++ ['=', '\x22'])), .value pair.2, .markup ['\x22']]

mutual

/-- The pieces of a node at a level of nesting. -/
def nodePieces (depth : Nat) : Node → List Piece
  | .text content => [.text content]
  | .element name attributes children =>
    let opening := .markup ('<' :: name.toList) :: attributes.flatMap attributePieces
    if children.isEmpty then opening ++ [.markup ['/', '>']]
    else
      let last := if children.any Node.isElement then newLine depth else []
      let closing := '<' :: '/' :: (name.toList ++ ['>'])
      opening ++ .markup ['>'] :: (nodesPieces depth children ++ [.markup (last ++ closing)])

/-- The pieces of the nodes inside of an element at a level of nesting. -/
def nodesPieces (depth : Nat) : List Node → List Piece
  | [] => []
  | node :: more =>
    .markup (if node.isElement then newLine (depth + 1) else []) ::
      (nodePieces (depth + 1) node ++ nodesPieces depth more)

end

/-- The pieces of a document. -/
def Document.pieces (document : Document) : List Piece :=
  .markup "<?xml".toList :: (attributePieces ("version", document.version) ++
    attributePieces ("encoding", document.encoding) ++
      .markup ('?' :: '>' :: newLine 0) :: nodePieces 0 document.root)

private theorem written_attributePieces (pair : String × String) :
    (attributePieces pair).flatMap Piece.written = renderAttribute pair := by
  simp [attributePieces, Piece.written, renderAttribute]

private theorem written_attributes (attributes : List (String × String)) :
    (attributes.flatMap attributePieces).flatMap Piece.written =
      attributes.flatMap renderAttribute := by
  rw [List.flatMap_assoc]
  simp only [written_attributePieces]

mutual

private theorem written_nodePieces (depth : Nat) :
    ∀ node : Node, (nodePieces depth node).flatMap Piece.written = renderNode depth node
  | .text content => by simp [nodePieces, renderNode, Piece.written]
  | .element name attributes children => by
    have inside := written_nodesPieces depth children
    have values := written_attributes attributes
    by_cases none : children.isEmpty = true
    · simp [nodePieces, renderNode, none, Piece.written, values]
    · simp [nodePieces, renderNode, none, Piece.written, values, inside]

private theorem written_nodesPieces (depth : Nat) :
    ∀ nodes : List Node, (nodesPieces depth nodes).flatMap Piece.written = renderNodes depth nodes
  | [] => by simp [nodesPieces, renderNodes]
  | node :: more => by
    simp [nodesPieces, renderNodes, Piece.written, written_nodePieces (depth + 1) node,
      written_nodesPieces depth more]

end

/-- The layout of a document is its pieces, one after the other. -/
theorem render_eq_written (document : Document) :
    document.render.toList = document.pieces.flatMap Piece.written := by
  simp [Document.render, Document.pieces, renderDeclaration_eq, declarationOpening, Opening.inner,
    Piece.written, written_attributePieces, written_nodePieces]

/-! ## The strings of a document -/

mutual

/-- The texts and attribute values of a node, in the order of its layout. -/
def nodeData : Node → List String
  | .text content => [content]
  | .element _ attributes children => attributes.map Prod.snd ++ nodesData children

def nodesData : List Node → List String
  | [] => []
  | node :: more => nodeData node ++ nodesData more

end

/-- The strings of a document, those of its declaration first. -/
def Document.data (document : Document) : List String :=
  document.version :: document.encoding :: nodeData document.root

/-- The data of a list of nodes is the data of each, in order. -/
theorem nodesData_eq_flatMap (nodes : List Node) : nodesData nodes = nodes.flatMap nodeData := by
  induction nodes with
  | nil => rfl
  | cons node more ih => rw [nodesData, ih, List.flatMap_cons]

private theorem data_attributes (attributes : List (String × String)) :
    (attributes.flatMap attributePieces).flatMap Piece.data = attributes.map Prod.snd := by
  induction attributes with
  | nil => rfl
  | cons pair others ih => simp [attributePieces, Piece.data, ih]

mutual

private theorem data_nodePieces (depth : Nat) :
    ∀ node : Node, (nodePieces depth node).flatMap Piece.data = nodeData node
  | .text content => rfl
  | .element name attributes children => by
    have inside := data_nodesPieces depth children
    have values := data_attributes attributes
    by_cases none : children.isEmpty = true
    · rw [List.isEmpty_iff.mp none]
      simp [nodePieces, nodeData, nodesData, Piece.data, values]
    · simp [nodePieces, nodeData, none, Piece.data, values, inside]

private theorem data_nodesPieces (depth : Nat) :
    ∀ nodes : List Node, (nodesPieces depth nodes).flatMap Piece.data = nodesData nodes
  | [] => rfl
  | node :: more => by
    simp [nodesPieces, nodesData, Piece.data, data_nodePieces (depth + 1) node,
      data_nodesPieces depth more]

end

/-- Every string of a document has its piece, and every piece but markup is a string of it. -/
theorem data_pieces (document : Document) :
    document.pieces.flatMap Piece.data = document.data := by
  simp [Document.pieces, Document.data, attributePieces, Piece.data, data_nodePieces]

/-! ## What escapes leave -/

/-- None of the marks stands bare in a text, and every ampersand in it begins an entity. -/
inductive Escaped (marks : List Char) : List Char → Prop
  | nil : Escaped marks []
  | plain {c : Char} {rest : List Char} (bare : c ∉ marks) (noEntity : c ≠ '&')
    (behind : Escaped marks rest) : Escaped marks (c :: rest)
  | entity (name : String) {rest : List Char} (known : name ∈ ["amp", "lt", "gt", "quot"])
    (behind : Escaped marks rest) : Escaped marks ('&' :: (name.toList ++ ';' :: rest))

/-- In a text no bracket stands bare, and in a value no quotation mark either. -/
def Piece.Guarded : Piece → Prop
  | .markup _ => True
  | .text content => Escaped ['<', '>'] (Piece.text content).written
  | .value content => Escaped ['<', '>', '\x22'] (Piece.value content).written

private theorem escaped_escapeTextCharacter {marks rest : List Char} {c : Char}
    (bracket : c ∈ marks → c = '<' ∨ c = '>') (behind : Escaped marks rest) :
    Escaped marks (escapeTextCharacter c ++ rest) := by
  obtain rfl | rfl | rfl | ⟨amp, lt, gt, itself⟩ := marked_or_plain c
  · exact .entity "amp" (by decide) behind
  · exact .entity "lt" (by decide) behind
  · exact .entity "gt" (by decide) behind
  · rw [itself]
    have bare : c ∉ marks := by
      intro mem
      exact (bracket mem).elim lt gt
    exact .plain bare amp behind

private theorem escaped_escapeAttributeCharacter {rest : List Char} (c : Char)
    (behind : Escaped ['<', '>', '\x22'] rest) :
    Escaped ['<', '>', '\x22'] (escapeAttributeCharacter c ++ rest) := by
  unfold escapeAttributeCharacter
  split
  · exact .entity "quot" (by decide) behind
  · next noQuote =>
    apply escaped_escapeTextCharacter _ behind
    intro mem
    have differs : c ≠ '\x22' := fun quote => noQuote (beq_of_eq quote)
    simpa [differs] using mem

/-- A map over characters that guards each of them guards every text. -/
theorem escaped_flatMap {marks : List Char} {escape : Char → List Char}
    (guards : ∀ c rest, Escaped marks rest → Escaped marks (escape c ++ rest)) (text : List Char) :
    Escaped marks (text.flatMap escape) := by
  induction text with
  | nil => exact .nil
  | cons c rest ih =>
    rw [List.flatMap_cons]
    exact guards c _ ih

/-- Whatever stands in a piece, its brackets and quotation marks are escaped. -/
theorem Piece.guarded (piece : Piece) : piece.Guarded := by
  cases piece with
  | markup written => trivial
  | text content =>
    apply escaped_flatMap
    intro c rest behind
    exact escaped_escapeTextCharacter (by simp) behind
  | value content =>
    show Escaped _ (escapeAttributeChars content.toList)
    rw [escapeAttributeChars_eq_flatMap]
    exact escaped_flatMap (fun c _ behind => escaped_escapeAttributeCharacter c behind) _

/-! ## Characters of layouts -/

private theorem literal_escapeTextCharacter (c : Char) :
    Literal (escapeTextCharacter c) ↔ isLiteral c = true := by
  obtain rfl | rfl | rfl | ⟨_, _, _, itself⟩ := marked_or_plain c
  · decide
  · decide
  · decide
  · rw [itself]
    exact List.forall_mem_singleton

private theorem literal_escapeAttributeCharacter (c : Char) :
    Literal (escapeAttributeCharacter c) ↔ isLiteral c = true := by
  unfold escapeAttributeCharacter
  split
  · next quote =>
    rw [eq_of_beq quote]
    decide
  · exact literal_escapeTextCharacter c

/-- A map over characters that writes only what it is given keeps a text as literal as it is. -/
theorem literal_flatMap {escape : Char → List Char}
    (each : ∀ c, Literal (escape c) ↔ isLiteral c = true) (text : List Char) :
    Literal (text.flatMap escape) ↔ Literal text := by
  induction text with
  | nil => rfl
  | cons c rest ih =>
    rw [List.flatMap_cons, literal_append, each, ih, Literal, Literal, List.forall_mem_cons]

/-- A piece that is markup is literal. -/
def Piece.LiteralMarkup : Piece → Prop
  | .markup written => Literal written
  | .text _ => True
  | .value _ => True

private theorem Piece.literal_written {piece : Piece} (markup : piece.LiteralMarkup) :
    Literal piece.written ↔ ∀ string ∈ piece.data, Literal string.toList := by
  cases piece with
  | markup written => simpa [Piece.written, data, Piece.LiteralMarkup] using markup
  | text content =>
    rw [data, List.forall_mem_singleton]
    exact literal_flatMap literal_escapeTextCharacter _
  | value content =>
    rw [data, List.forall_mem_singleton, written, escapeAttributeChars_eq_flatMap]
    exact literal_flatMap literal_escapeAttributeCharacter _

private theorem literalMarkup_attributePieces {pair : String × String} (named : isName pair.1 = true) :
    ∀ piece ∈ attributePieces pair, piece.LiteralMarkup := by
  have name := literal_of_isName named
  have around : Literal [' '] ∧ Literal ['=', '\x22'] ∧ Literal ['\x22'] := by decide
  intro piece mem
  simp only [attributePieces, List.mem_cons, List.not_mem_nil, or_false] at mem
  obtain rfl | rfl | rfl := mem
  · exact literal_append.mpr ⟨around.1, literal_append.mpr ⟨name, around.2.1⟩⟩
  · trivial
  · exact around.2.2

private theorem literal_newLine (depth : Nat) : Literal (newLine depth) := by
  intro c mem
  obtain rfl | mem := List.mem_cons.mp mem
  · decide
  · rw [(List.mem_replicate.mp mem).2]
    decide

private theorem literalMarkup_nodesPieces {children : List Node} {depth : Nat}
    (each : ∀ child ∈ children, ∀ depth, ∀ piece ∈ nodePieces depth child, piece.LiteralMarkup) :
    ∀ piece ∈ nodesPieces depth children, piece.LiteralMarkup := by
  induction children with
  | nil => simp [nodesPieces]
  | cons child more ih =>
    obtain ⟨first, others⟩ := List.forall_mem_cons.mp each
    refine List.forall_mem_cons.mpr ⟨?_, List.forall_mem_append.mpr ⟨first _, ih others⟩⟩
    show Literal (if child.isElement then newLine (depth + 1) else [])
    split
    · exact literal_newLine _
    · decide

/-- An element has literal markup if what is in it has: its names are literal, and so is all that the
layout puts around them. -/
theorem Opening.Named.literalMarkup_node {start : Opening} (named : start.Named) {depth : Nat}
    {children : List Node} (inside : ∀ piece ∈ nodesPieces depth children, piece.LiteralMarkup) :
    ∀ piece ∈ nodePieces depth (start.node children), piece.LiteralMarkup := by
  have name := literal_of_isName named.name
  have attributes : ∀ piece ∈ start.attributes.flatMap attributePieces, piece.LiteralMarkup := by
    intro piece mem
    obtain ⟨pair, memPair, inPair⟩ := List.mem_flatMap.mp mem
    exact literalMarkup_attributePieces (named.attributes pair memPair) piece inPair
  have opening : Literal ('<' :: start.name.toList) :=
    literal_append.mpr ⟨show Literal ['<'] by decide, name⟩
  have closing : Literal ('<' :: '/' :: (start.name.toList ++ ['>'])) :=
    literal_append.mpr ⟨show Literal ['<', '/'] by decide, literal_append.mpr ⟨name, by decide⟩⟩
  have last : Literal (if children.any Node.isElement then newLine depth else []) := by
    split
    · exact literal_newLine _
    · decide
  have marks : Literal ['>'] ∧ Literal ['/', '>'] := by decide
  unfold Opening.node nodePieces
  split
  · refine List.forall_mem_append.mpr ⟨List.forall_mem_cons.mpr ⟨opening, attributes⟩, ?_⟩
    exact List.forall_mem_singleton.mpr marks.2
  · refine List.forall_mem_append.mpr ⟨List.forall_mem_cons.mpr ⟨opening, attributes⟩, ?_⟩
    refine List.forall_mem_cons.mpr ⟨marks.1, List.forall_mem_append.mpr ⟨inside, ?_⟩⟩
    exact List.forall_mem_singleton.mpr (literal_append.mpr ⟨last, closing⟩)

private theorem Regular.literalMarkup {node : Node} (regular : Regular node) (depth : Nat) :
    ∀ piece ∈ nodePieces depth node, piece.LiteralMarkup := by
  induction regular generalizing depth with
  | empty start named => exact named.literalMarkup_node (by simp [nodesPieces])
  | text start named content =>
    apply named.literalMarkup_node
    apply literalMarkup_nodesPieces
    simp [nodePieces, Piece.LiteralMarkup]
  | elements start named _ inside =>
    exact named.literalMarkup_node (literalMarkup_nodesPieces inside)

/-- **Which layouts are literal.** The layout of a document holds only characters that may stand in it
as they are exactly when its strings do. -/
theorem literal_render_iff {document : Document} (regular : Regular document.root) :
    Literal document.render.toList ↔ ∀ string ∈ document.data, Literal string.toList := by
  have markup : ∀ piece ∈ document.pieces, piece.LiteralMarkup := by
    have front : Literal "<?xml".toList ∧ Literal ('?' :: '>' :: newLine 0) := by decide
    have named : isName "version" = true ∧ isName "encoding" = true := by decide
    have pairs : ∀ piece ∈ attributePieces ("version", document.version) ++
        attributePieces ("encoding", document.encoding), piece.LiteralMarkup :=
      List.forall_mem_append.mpr ⟨literalMarkup_attributePieces named.1,
        literalMarkup_attributePieces named.2⟩
    refine List.forall_mem_cons.mpr ⟨front.1, List.forall_mem_append.mpr ⟨pairs, ?_⟩⟩
    exact List.forall_mem_cons.mpr ⟨front.2, regular.literalMarkup 0⟩
  rw [render_eq_written, ← data_pieces]
  constructor
  · intro literal string mem
    obtain ⟨piece, memPiece, inPiece⟩ := List.mem_flatMap.mp mem
    have written : Literal piece.written := fun c memWritten =>
      literal c (List.mem_flatMap.mpr ⟨piece, memPiece, memWritten⟩)
    exact (Piece.literal_written (markup piece memPiece)).mp written string inPiece
  · intro literal c mem
    obtain ⟨piece, memPiece, memWritten⟩ := List.mem_flatMap.mp mem
    refine (Piece.literal_written (markup piece memPiece)).mpr (fun string inPiece => ?_) c memWritten
    exact literal string (List.mem_flatMap.mpr ⟨piece, memPiece, inPiece⟩)

end Harvest.Xml
