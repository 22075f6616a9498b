import Harvest.Proofs.Xml.RoundTrip

/-!
# What a reader makes of the characters

Before a reader of XML 1.1 takes a document apart it makes one line feed of every line end, and before
it resolves the entities in an attribute value it makes a blank of every tab and line feed in it. Both
are passes over the characters of a document. Neither sees markup as anything but itself, and no escape
makes or takes away a character that they change. So the document that comes out of the layout is the
one that went in, with its texts and values changed alone.
-/

namespace Harvest.Xml

/-! ## Passes over characters -/

/-- The character ends a line, with or without a line feed. -/
def isLineEnd (c : Char) : Bool := c == '\r' || c == '\u0085' || c == '\u2028'

/-- One line feed for every line end. -/
def normalizeLines : List Char → List Char
  | '\r' :: '\n' :: rest => '\n' :: normalizeLines rest
  | '\r' :: '\u0085' :: rest => '\n' :: normalizeLines rest
  | c :: rest => (if isLineEnd c then '\n' else c) :: normalizeLines rest
  | [] => []

/-- The character stands for a blank in an attribute value. -/
def isSpacing (c : Char) : Bool := c == '\t' || c == '\n' || c == '\r'

/-- A character of an attribute value. -/
def spaced (c : Char) : Char := if isSpacing c then ' ' else c

/-- Where in a document a character stands. -/
inductive Region where
  | content
  | tag
  /-- Between two of these marks inside of a tag. -/
  | value (mark : Char)
  deriving DecidableEq, Repr

/-- The region behind a character. -/
def Region.next : Region → Char → Region
  | .content, c => if c == '<' then .tag else .content
  | .tag, c => if c == '>' then .content else if c == '\x22' || c == '\x27' then .value c else .tag
  | .value mark, c => if c == mark then .tag else .value mark

/-- Blanks in attribute values. -/
def normalizeValues : Region → List Char → List Char
  | _, [] => []
  | .value mark, c :: rest => spaced c :: normalizeValues (Region.next (.value mark) c) rest
  | .content, c :: rest => c :: normalizeValues (Region.next .content c) rest
  | .tag, c :: rest => c :: normalizeValues (Region.next .tag c) rest

/-- The characters of a document as they are read, up to the entities. -/
def normalize (text : String) : String :=
  String.ofList (normalizeValues .content (normalizeLines text.toList))

/-! ## What escapes leave alone -/

/-- A blank, or a character that a pass makes a blank or a line feed of. -/
def isWhite (c : Char) : Bool := c == ' ' || isSpacing c || isLineEnd c

/-- The characters that an escape replaces are not white, nor are those that it puts for them. -/
def KeepsWhite (escape : Char → List Char) : Prop :=
  ∀ c, escape c = [c] ∨
    (isWhite c = false ∧ escape c ≠ [] ∧ (escape c).all (fun d => !isWhite d) = true)

private theorem keepsWhite_escapeTextCharacter : KeepsWhite escapeTextCharacter := by
  intro c
  obtain rfl | rfl | rfl | ⟨_, _, _, itself⟩ := marked_or_plain c
  · exact .inr (by decide)
  · exact .inr (by decide)
  · exact .inr (by decide)
  · exact .inl itself

private theorem keepsWhite_escapeAttributeCharacter : KeepsWhite escapeAttributeCharacter := by
  intro c
  by_cases quote : c = '\x22'
  · rw [quote]
    exact .inr (by decide)
  · have same : escapeAttributeCharacter c = escapeTextCharacter c :=
      if_neg fun equal => quote (eq_of_beq equal)
    rw [same]
    exact keepsWhite_escapeTextCharacter c

namespace KeepsWhite

variable {escape : Char → List Char} {c : Char}

/-- An escape that keeps white space writes it as it is. -/
theorem itself (keeps : KeepsWhite escape) (white : isWhite c = true) : escape c = [c] := by
  obtain same | ⟨notWhite, _⟩ := keeps c
  · exact same
  · rw [white] at notWhite
    cases notWhite

/-- No character of a white kind stands for one that is not of it. -/
theorem forall_mem (keeps : KeepsWhite escape) {kind : Char → Bool}
    (among : ∀ d, kind d = true → isWhite d = true) (other : kind c = false) :
    ∀ d ∈ escape c, kind d = false := by
  intro d mem
  obtain same | ⟨_, _, notWhite⟩ := keeps c
  · rw [same] at mem
    rw [List.mem_singleton.mp mem, other]
  · have kept := List.all_eq_true.mp notWhite d mem
    rw [Bool.eq_false_iff]
    intro isKind
    simp [among d isKind] at kept

/-- A white character comes first in an escaped text only if it does in the text. -/
theorem head?_flatMap (keeps : KeepsWhite escape) {mark d : Char} (other : isWhite mark = false)
    (white : isWhite d = true) {text rest : List Char}
    (first : (text.flatMap escape ++ mark :: rest).head? = some d) : text.head? = some d := by
  cases text with
  | nil =>
    cases Option.some.inj first
    rw [other] at white
    cases white
  | cons c text =>
    rw [List.flatMap_cons, List.append_assoc] at first
    obtain same | ⟨_, filled, notWhite⟩ := keeps c
    · rw [same] at first
      exact first
    · obtain ⟨e, more, split⟩ := List.exists_cons_of_ne_nil filled
      rw [split] at first notWhite
      cases Option.some.inj first
      simp [white] at notWhite

end KeepsWhite

/-! ## Line ends -/

private theorem normalizeLines_cons_of_plain {c : Char} (plain : isLineEnd c = false) (rest : List Char) :
    normalizeLines (c :: rest) = c :: normalizeLines rest := by
  have noReturn : c ≠ '\r' := by
    rintro rfl
    exact absurd plain (by decide)
  rw [normalizeLines, plain]
  · rfl
  · exact fun _ isReturn => absurd isReturn noReturn
  · exact fun _ isReturn => absurd isReturn noReturn

private theorem normalizeLines_append_of_plain {front : List Char}
    (plain : ∀ c ∈ front, isLineEnd c = false) (rest : List Char) :
    normalizeLines (front ++ rest) = front ++ normalizeLines rest := by
  induction front with
  | nil => rfl
  | cons c front ih =>
    obtain ⟨first, others⟩ := List.forall_mem_cons.mp plain
    rw [List.cons_append, normalizeLines_cons_of_plain first, ih others, List.cons_append]

private theorem normalizeLines_cons_of_lineEnd {c : Char} (ends : isLineEnd c = true) {rest : List Char}
    (alone : c = '\r' → rest.head? ≠ some '\n' ∧ rest.head? ≠ some '\u0085') :
    normalizeLines (c :: rest) = '\n' :: normalizeLines rest := by
  rw [normalizeLines, ends]
  · rfl
  · rintro more rfl rfl
    exact (alone rfl).1 rfl
  · rintro more rfl rfl
    exact (alone rfl).2 rfl

/-- Line ends are the same in a text and in its escaped form, if what stands behind it is none. -/
theorem normalizeLines_flatMap {escape : Char → List Char} (keeps : KeepsWhite escape)
    {mark : Char} (other : isWhite mark = false) (text rest : List Char) :
    normalizeLines (text.flatMap escape ++ mark :: rest) =
      (normalizeLines text).flatMap escape ++ normalizeLines (mark :: rest) := by
  have lineEnds : ∀ d, isLineEnd d = true → isWhite d = true := fun d ends => by
    simp [isWhite, ends]
  fun_induction normalizeLines text with
  | case1 text ih =>
    rw [List.flatMap_cons, List.flatMap_cons, keeps.itself (by decide), keeps.itself (by decide),
      List.flatMap_cons, keeps.itself (by decide)]
    exact congrArg ('\n' :: ·) ih
  | case2 text ih =>
    rw [List.flatMap_cons, List.flatMap_cons, keeps.itself (by decide), keeps.itself (by decide),
      List.flatMap_cons, keeps.itself (by decide)]
    exact congrArg ('\n' :: ·) ih
  | case3 c text noFeed noNext ih =>
    rw [List.flatMap_cons, List.flatMap_cons, List.append_assoc, List.append_assoc]
    cases ends : isLineEnd c with
    | true =>
      rw [keeps.itself (lineEnds c ends)]
      have alone : c = '\r' → (text.flatMap escape ++ mark :: rest).head? ≠ some '\n' ∧
          (text.flatMap escape ++ mark :: rest).head? ≠ some '\u0085' := by
        intro isReturn
        constructor
        · intro first
          obtain ⟨more, split⟩ := List.head?_eq_some_iff.mp
            (keeps.head?_flatMap other (by decide) first)
          exact noFeed more isReturn split
        · intro first
          obtain ⟨more, split⟩ := List.head?_eq_some_iff.mp
            (keeps.head?_flatMap other (by decide) first)
          exact noNext more isReturn split
      rw [List.singleton_append, normalizeLines_cons_of_lineEnd ends alone, ih]
      simp only [if_true, keeps.itself (show isWhite '\n' = true by decide)]
      rfl
    | false =>
      rw [normalizeLines_append_of_plain (keeps.forall_mem lineEnds ends), ih]
      rfl
  | case4 => rfl

/-- No line end is left but line feeds. -/
theorem isLineEnd_of_mem_normalizeLines {text : List Char} {c : Char}
    (mem : c ∈ normalizeLines text) : isLineEnd c = false := by
  fun_induction normalizeLines text with
  | case1 text ih =>
    obtain rfl | mem := List.mem_cons.mp mem
    · decide
    · exact ih mem
  | case2 text ih =>
    obtain rfl | mem := List.mem_cons.mp mem
    · decide
    · exact ih mem
  | case3 d text _ _ ih =>
    obtain rfl | mem := List.mem_cons.mp mem
    · cases ends : isLineEnd d with
      | true => rfl
      | false => exact ends
    · exact ih mem
  | case4 => cases mem

private theorem normalizeLines_eq_self_iff {text : List Char} :
    normalizeLines text = text ↔ ∀ c ∈ text, isLineEnd c = false := by
  constructor
  · intro same c mem
    rw [← same] at mem
    exact isLineEnd_of_mem_normalizeLines mem
  · intro plain
    have kept := normalizeLines_append_of_plain plain []
    rwa [List.append_nil, show normalizeLines [] = [] from rfl, List.append_nil] at kept

/-! ## Blanks in values -/

private theorem spaced_eq_self_iff {c : Char} : spaced c = c ↔ isSpacing c = false := by
  unfold spaced
  cases spacing : isSpacing c with
  | true =>
    have blank : ' ' ≠ c := by
      rintro rfl
      exact absurd spacing (by decide)
    simp [blank]
  | false => simp

private theorem map_spaced_eq_self_iff {text : List Char} :
    text.map spaced = text ↔ ∀ c ∈ text, isSpacing c = false := by
  have pointwise : text.map spaced = text.map id ↔ ∀ c ∈ text, spaced c = id c := List.map_inj_left
  rw [List.map_id] at pointwise
  rw [pointwise]
  exact forall₂_congr fun c _ => spaced_eq_self_iff

private theorem map_spaced_escape {escape : Char → List Char} (keeps : KeepsWhite escape) (c : Char) :
    (escape c).map spaced = escape (spaced c) := by
  have spacings : ∀ d, isSpacing d = true → isWhite d = true := fun d spacing => by
    simp [isWhite, spacing]
  cases spacing : isSpacing c with
  | true =>
    rw [keeps.itself (spacings c spacing), List.map_singleton, spaced, spacing, if_pos rfl,
      keeps.itself (by decide)]
  | false =>
    rw [spaced_eq_self_iff.mpr spacing, map_spaced_eq_self_iff]
    exact keeps.forall_mem spacings spacing

private theorem map_spaced_flatMap {escape : Char → List Char} (keeps : KeepsWhite escape)
    (text : List Char) : (text.flatMap escape).map spaced = (text.map spaced).flatMap escape := by
  rw [List.map_flatMap, List.flatMap_map]
  simp only [map_spaced_escape keeps]

private theorem normalizeValues_content {text : List Char} (free : '<' ∉ text) (rest : List Char) :
    normalizeValues .content (text ++ rest) = text ++ normalizeValues .content rest := by
  induction text with
  | nil => rfl
  | cons c text ih =>
    rw [List.mem_cons, not_or] at free
    have stays : Region.next .content c = .content := by simp [Region.next, Ne.symm free.1]
    rw [List.cons_append, normalizeValues, stays, ih free.2, List.cons_append]

private theorem normalizeValues_value {text : List Char} {mark : Char} (free : mark ∉ text) (rest : List Char) :
    normalizeValues (.value mark) (text ++ rest) =
      text.map spaced ++ normalizeValues (.value mark) rest := by
  induction text with
  | nil => rfl
  | cons c text ih =>
    rw [List.mem_cons, not_or] at free
    have stays : Region.next (.value mark) c = .value mark := by
      simp [Region.next, Ne.symm free.1]
    rw [List.cons_append, normalizeValues, stays, ih free.2, List.map_cons, List.cons_append]

/-! ## Passes that keep markup -/

/-- The character stands in a tag around names and values. -/
def isTagMark (c : Char) : Bool := c == ' ' || c == '=' || c == '/' || c == '?'

/-- A pass over the characters of a document, `content` outside of its tags and `tag` inside of them,
that changes texts by `onText`, attribute values by `onValue` and nothing else. -/
structure KeepsMarkup (content tag : List Char → List Char) (onText onValue : String → String) :
    Prop where
  nil : content [] = []
  blank : ∀ c rest, c = ' ' ∨ c = '\n' → content (c :: rest) = c :: content rest
  enter : ∀ rest, content ('<' :: rest) = '<' :: tag rest
  leave : ∀ rest, tag ('>' :: rest) = '>' :: content rest
  inner : ∀ c rest, isNameCharacter c = true ∨ isTagMark c = true → tag (c :: rest) = c :: tag rest
  text : ∀ string rest, content (escapeTextChars string.toList ++ '<' :: rest) =
    escapeTextChars (onText string).toList ++ content ('<' :: rest)
  value : ∀ string rest, tag ('\x22' :: (escapeAttributeChars string.toList ++ '\x22' :: rest)) =
    '\x22' :: (escapeAttributeChars (onValue string).toList ++ '\x22' :: tag rest)

/-- A text as it is read. -/
def readText (text : String) : String := String.ofList (normalizeLines text.toList)

/-- An attribute value as it is read. -/
def readValue (value : String) : String := String.ofList ((readText value).toList.map spaced)

/-- Names and the marks of a tag end no line. -/
theorem isLineEnd_of_inner {c : Char} (inner : isNameCharacter c = true ∨ isTagMark c = true) :
    isLineEnd c = false := by
  rw [Bool.eq_false_iff]
  intro ends
  simp only [isLineEnd, Bool.or_eq_true, beq_iff_eq] at ends
  obtain (rfl | rfl) | rfl := ends
  all_goals exact absurd inner (by decide)

private theorem keepsMarkup_normalizeLines :
    KeepsMarkup normalizeLines normalizeLines readText readText where
  nil := rfl
  blank c rest isBlank := by
    obtain rfl | rfl := isBlank
    · exact normalizeLines_cons_of_plain (by decide) rest
    · exact normalizeLines_cons_of_plain (by decide) rest
  enter := normalizeLines_cons_of_plain (by decide)
  leave := normalizeLines_cons_of_plain (by decide)
  inner c rest inner := normalizeLines_cons_of_plain (isLineEnd_of_inner inner) rest
  text string rest := by
    rw [readText, String.toList_ofList]
    exact normalizeLines_flatMap keepsWhite_escapeTextCharacter (by decide) _ _
  value string rest := by
    rw [readText, String.toList_ofList, escapeAttributeChars_eq_flatMap,
      escapeAttributeChars_eq_flatMap, normalizeLines_cons_of_plain (by decide),
      normalizeLines_flatMap keepsWhite_escapeAttributeCharacter (by decide),
      normalizeLines_cons_of_plain (by decide)]

private theorem next_tag_of_inner {c : Char} (inner : isNameCharacter c = true ∨ isTagMark c = true) :
    Region.next .tag c = .tag := by
  have bracket : c ≠ '>' := by
    rintro rfl
    exact absurd inner (by decide)
  have quote : c ≠ '\x22' := by
    rintro rfl
    exact absurd inner (by decide)
  have apostrophe : c ≠ '\x27' := by
    rintro rfl
    exact absurd inner (by decide)
  simp [Region.next, bracket, quote, apostrophe]

private theorem keepsMarkup_normalizeValues :
    KeepsMarkup (normalizeValues .content) (normalizeValues .tag) id
      (fun value => String.ofList (value.toList.map spaced)) where
  nil := rfl
  blank c rest isBlank := by
    obtain rfl | rfl := isBlank
    · rfl
    · rfl
  enter rest := rfl
  leave rest := rfl
  inner c rest inner := by rw [normalizeValues, next_tag_of_inner inner]
  text string rest :=
    normalizeValues_content (fun mem => (unbracketed_escapeTextChars _ _ mem).1 rfl) _
  value string rest := by
    have free := quote_not_mem_escapeAttributeChars string.toList
    have behind : normalizeValues (.value '\x22') ('\x22' :: rest) =
      '\x22' :: normalizeValues .tag rest := rfl
    show '\x22' :: normalizeValues (.value '\x22') _ = _
    rw [normalizeValues_value free, behind, String.toList_ofList, escapeAttributeChars_eq_flatMap,
      escapeAttributeChars_eq_flatMap, map_spaced_flatMap keepsWhite_escapeAttributeCharacter]

/-! ## Documents behind a pass -/

mutual

/-- The node with its texts and its attribute values changed. -/
def Node.mapData (onText onValue : String → String) : Node → Node
  | .text content => .text (onText content)
  | .element name attributes children =>
    .element name (attributes.map fun pair => (pair.1, onValue pair.2))
      (mapDataAll onText onValue children)

def Node.mapDataAll (onText onValue : String → String) : List Node → List Node
  | [] => []
  | node :: more => node.mapData onText onValue :: mapDataAll onText onValue more

end

/-- The data of a list of nodes is mapped node by node. -/
theorem Node.mapDataAll_eq_map (onText onValue : String → String) (nodes : List Node) :
    mapDataAll onText onValue nodes = nodes.map (mapData onText onValue) := by
  induction nodes with
  | nil => rfl
  | cons node more ih => rw [mapDataAll, ih, List.map_cons]

private theorem Node.isElement_mapData (onText onValue : String → String) (node : Node) :
    (node.mapData onText onValue).isElement = node.isElement := by
  cases node <;> rfl

def Opening.mapValues (onValue : String → String) (start : Opening) : Opening :=
  ⟨start.name, start.attributes.map fun pair => (pair.1, onValue pair.2)⟩

private theorem Opening.mapData_node (onText onValue : String → String) (start : Opening)
    (children : List Node) :
    (start.node children).mapData onText onValue =
      (start.mapValues onValue).node (Node.mapDataAll onText onValue children) := by
  rw [Opening.node, Node.mapData]
  rfl

/-- The document with its texts and its attribute values changed. -/
def Document.mapData (onText onValue : String → String) (document : Document) : Document :=
  ⟨onValue document.version, onValue document.encoding, document.root.mapData onText onValue⟩

namespace KeepsMarkup

variable {content tag content' tag' : List Char → List Char}
  {onText onValue onText' onValue' : String → String}

/-- Two passes, one after the other. -/
theorem comp (second : KeepsMarkup content' tag' onText' onValue')
    (first : KeepsMarkup content tag onText onValue) :
    KeepsMarkup (content' ∘ content) (tag' ∘ tag) (onText' ∘ onText) (onValue' ∘ onValue) where
  nil := by simp only [Function.comp_apply, first.nil, second.nil]
  blank c rest isBlank := by
    simp only [Function.comp_apply, first.blank c rest isBlank, second.blank c _ isBlank]
  enter rest := by simp only [Function.comp_apply, first.enter, second.enter]
  leave rest := by simp only [Function.comp_apply, first.leave, second.leave]
  inner c rest isInner := by
    simp only [Function.comp_apply, first.inner c rest isInner, second.inner c _ isInner]
  text string rest := by simp only [Function.comp_apply, first.text, first.enter, second.text]
  value string rest := by simp only [Function.comp_apply, first.value, second.value]

variable (keeps : KeepsMarkup content tag onText onValue)

include keeps

private theorem content_newLine (depth : Nat) (rest : List Char) :
    content (newLine depth ++ rest) = newLine depth ++ content rest := by
  have blanks : ∀ count, content (List.replicate count ' ' ++ rest) =
      List.replicate count ' ' ++ content rest := by
    intro count
    induction count with
    | zero => rfl
    | succ count ih =>
      rw [List.replicate_succ, List.cons_append, keeps.blank _ _ (.inl rfl), ih, List.cons_append]
  rw [newLine, List.cons_append, keeps.blank _ _ (.inr rfl), blanks, List.cons_append]

private theorem tag_name {name : String} (named : isName name = true) (rest : List Char) :
    tag (name.toList ++ rest) = name.toList ++ tag rest := by
  simp only [isName, Bool.and_eq_true, List.all_eq_true] at named
  have letters := named.2
  generalize name.toList = chars at letters
  induction chars with
  | nil => rfl
  | cons c chars ih =>
    obtain ⟨first, others⟩ := List.forall_mem_cons.mp letters
    rw [List.cons_append, keeps.inner c _ (.inl first), ih others, List.cons_append]

private theorem tag_renderAttribute {pair : String × String} (named : isName pair.1 = true)
    (rest : List Char) :
    tag (renderAttribute pair ++ rest) = renderAttribute (pair.1, onValue pair.2) ++ tag rest := by
  have layout : ∀ (value : String) (rest : List Char), renderAttribute (pair.1, value) ++ rest =
      ' ' :: (pair.1.toList ++ '=' :: '\x22' ::
        (escapeAttributeChars value.toList ++ '\x22' :: rest)) := by
    intro value rest
    simp [renderAttribute]
  rw [show pair = (pair.1, pair.2) from rfl, layout, keeps.inner _ _ (.inr rfl), keeps.tag_name named,
    keeps.inner _ _ (.inr rfl), keeps.value, layout]

private theorem tag_attributes {attributes : List (String × String)}
    (named : ∀ pair ∈ attributes, isName pair.1 = true) (rest : List Char) :
    tag (attributes.flatMap renderAttribute ++ rest) =
      (attributes.map fun pair => (pair.1, onValue pair.2)).flatMap renderAttribute ++ tag rest := by
  induction attributes with
  | nil => rfl
  | cons pair others ih =>
    obtain ⟨first, more⟩ := List.forall_mem_cons.mp named
    rw [List.flatMap_cons, List.append_assoc, keeps.tag_renderAttribute first, ih more,
      List.map_cons, List.flatMap_cons, List.append_assoc]

/-- An opening tag keeps its names, and its values are changed. -/
theorem tag_inner {start : Opening} (named : start.Named) (rest : List Char) :
    tag (start.inner ++ rest) = (start.mapValues onValue).inner ++ tag rest := by
  rw [Opening.inner, List.append_assoc, keeps.tag_name named.name,
    keeps.tag_attributes named.attributes, Opening.inner, List.append_assoc]
  rfl

private theorem content_closing {start : Opening} (named : start.Named) (rest : List Char) :
    content ('<' :: ('/' :: start.name.toList ++ '>' :: rest)) =
      '<' :: ('/' :: start.name.toList ++ '>' :: content rest) := by
  rw [keeps.enter, List.cons_append, keeps.inner _ _ (.inr rfl), keeps.tag_name named.name, keeps.leave,
    List.cons_append]

private theorem content_renderNodes {children : List Node} {depth : Nat}
    (each : ∀ child ∈ children, ∀ (depth : Nat) (rest : List Char),
      content (renderNode depth child ++ rest) =
        renderNode depth (child.mapData onText onValue) ++ content rest) (rest : List Char) :
    content (renderNodes depth children ++ rest) =
      renderNodes depth (Node.mapDataAll onText onValue children) ++ content rest := by
  induction children with
  | nil => rfl
  | cons child more ih =>
    obtain ⟨first, others⟩ := List.forall_mem_cons.mp each
    have lead : ∀ rest, content ((if child.isElement then newLine (depth + 1) else []) ++ rest) =
        (if child.isElement then newLine (depth + 1) else []) ++ content rest := by
      intro rest
      split
      · exact keeps.content_newLine _ rest
      · rfl
    rw [renderNodes, Node.mapDataAll, renderNodes, Node.isElement_mapData, List.append_assoc,
      List.append_assoc, lead, first, ih others, List.append_assoc, List.append_assoc]

/-- A pass that keeps markup takes the layout of a node to the layout of the changed node. -/
theorem content_renderNode {node : Node} (regular : Regular node) (depth : Nat) (rest : List Char) :
    content (renderNode depth node ++ rest) =
      renderNode depth (node.mapData onText onValue) ++ content rest := by
  induction regular generalizing depth rest with
  | empty start named =>
    rw [start.mapData_node, start.renderNode_empty, keeps.enter, keeps.tag_inner named,
      keeps.inner _ _ (.inr rfl), keeps.leave]
    exact ((start.mapValues onValue).renderNode_empty depth _).symm
  | text start named string =>
    rw [start.mapData_node, start.renderNode_text, keeps.enter, keeps.tag_inner named, keeps.leave,
      keeps.text, keeps.content_closing named]
    exact ((start.mapValues onValue).renderNode_text depth _ _).symm
  | @elements start first more named children inside =>
    have element := (children first List.mem_cons_self).isElement
    rw [start.mapData_node, start.renderNode_elements depth element, keeps.enter,
      keeps.tag_inner named, keeps.leave, keeps.content_renderNodes inside, keeps.content_newLine,
      keeps.content_closing named]
    rw [← Node.isElement_mapData onText onValue] at element
    exact ((start.mapValues onValue).renderNode_elements depth element _).symm

/-- A pass that keeps markup takes the layout of a document to the layout of the changed document. -/
theorem content_render {document : Document} (regular : Regular document.root) :
    content document.render.toList = (document.mapData onText onValue).render.toList := by
  have layout : ∀ document : Document, document.render.toList =
      '<' :: '?' :: ("xml".toList ++ (renderAttribute ("version", document.version) ++
        (renderAttribute ("encoding", document.encoding) ++
          '?' :: '>' :: (newLine 0 ++ (renderNode 0 document.root ++ []))))) := by
    intro document
    simp [Document.render, renderDeclaration_eq, declarationOpening, Opening.inner]
  have named : isName "xml" = true ∧ isName "version" = true ∧ isName "encoding" = true := by decide
  rw [layout, keeps.enter, keeps.inner _ _ (.inr rfl), keeps.tag_name named.1,
    keeps.tag_renderAttribute named.2.1, keeps.tag_renderAttribute named.2.2,
    keeps.inner _ _ (.inr rfl), keeps.leave, keeps.content_newLine,
    keeps.content_renderNode regular, keeps.nil, layout]
  rfl

end KeepsMarkup

/-- **What is read of a layout.** Normalizing the layout of a document gives the layout of the document
with its texts and values as they are read. -/
theorem normalize_render {document : Document} (regular : Regular document.root) :
    normalize document.render = (document.mapData readText readValue).render := by
  have both : KeepsMarkup (normalizeValues .content ∘ normalizeLines)
      (normalizeValues .tag ∘ normalizeLines) readText readValue :=
    keepsMarkup_normalizeValues.comp keepsMarkup_normalizeLines
  rw [normalize, ← String.toList_inj, String.toList_ofList, ← both.content_render regular,
    Function.comp_apply]

/-! ## Strings that are read as they are -/

/-- A text is read as it was written when a line feed is the only line end in it. -/
theorem readText_eq_self_iff {text : String} :
    readText text = text ↔ ∀ c ∈ text.toList, isLineEnd c = false := by
  rw [readText, ← String.toList_inj, String.toList_ofList, normalizeLines_eq_self_iff]

/-- A value is read as it was written when the blank is the only spacing in it, and it ends no line. -/
theorem readValue_eq_self_iff {value : String} :
    readValue value = value ↔
      ∀ c ∈ value.toList, isLineEnd c = false ∧ isSpacing c = false := by
  have chars : readValue value = value ↔ (normalizeLines value.toList).map spaced = value.toList := by
    rw [readValue, readText, ← String.toList_inj, String.toList_ofList, String.toList_ofList]
  rw [chars]
  constructor
  · intro same c mem
    -- what comes out of both passes is neither a line end nor a tab or line feed
    rw [← same] at mem
    obtain ⟨d, memLines, rfl⟩ := List.mem_map.mp mem
    have noEnd := isLineEnd_of_mem_normalizeLines memLines
    unfold spaced
    cases spacing : isSpacing d with
    | true => exact ⟨rfl, rfl⟩
    | false => exact ⟨noEnd, spacing⟩
  · intro plain
    rw [normalizeLines_eq_self_iff.mpr fun c mem => (plain c mem).1]
    exact map_spaced_eq_self_iff.mpr fun c mem => (plain c mem).2

end Harvest.Xml
