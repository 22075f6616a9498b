import Harvest.Proofs.Xml.Reader

/-!
# Reading gives documents back

What is laid out tag by tag is read tag by tag. A tag is found whole because neither names nor escaped
values hold its brackets, and an attribute because neither hold its quotation marks. The induction
over elements says that the layout of an element, read at any place and with anything behind it, leads
to the place with that element in front.
-/

namespace Harvest.Xml

/-! ## Tags -/

/-- Element and attribute names are names. -/
structure Opening.Named (start : Opening) : Prop where
  name : isName start.name = true
  attributes : ∀ pair ∈ start.attributes, isName pair.1 = true

/-- The opening tag between its brackets. -/
def Opening.inner (start : Opening) : List Char :=
  start.name.toList ++ start.attributes.flatMap renderAttribute

private theorem not_mem_of_isName {name : String} {mark : Char} (named : isName name = true)
    (other : isNameCharacter mark = false) : mark ∉ name.toList := by
  intro mem
  simp only [isName, Bool.and_eq_true, List.all_eq_true] at named
  have nameCharacter := named.2 mark mem
  rw [other] at nameCharacter
  cases nameCharacter

namespace Unbracketed

/-- Two texts without brackets make one without brackets. -/
theorem append {front back : List Char} (inFront : Unbracketed front) (behind : Unbracketed back) :
    Unbracketed (front ++ back) := by
  intro c mem
  obtain mem | mem := List.mem_append.mp mem
  · exact inFront c mem
  · exact behind c mem

private theorem of_isName {name : String} (named : isName name = true) : Unbracketed name.toList := by
  intro c mem
  constructor
  · rintro rfl
    exact not_mem_of_isName named (by decide) mem
  · rintro rfl
    exact not_mem_of_isName named (by decide) mem

private theorem of_isBlank {text : List Char} (blank : isBlank text = true) : Unbracketed text := by
  intro c mem
  have blankCharacter := List.all_eq_true.mp blank c mem
  constructor
  · rintro rfl
    exact absurd blankCharacter (by decide)
  · rintro rfl
    exact absurd blankCharacter (by decide)

private theorem of_pair {pair : String × String} (named : isName pair.1 = true) :
    Unbracketed (renderAttribute pair) := by
  have value := unbracketed_escapeAttributeChars pair.2.toList
  have parts : renderAttribute pair =
      [' '] ++ pair.1.toList ++ ['=', '\x22'] ++ escapeAttributeChars pair.2.toList ++ ['\x22'] := by
    simp [renderAttribute]
  rw [parts]
  refine .append (.append (.append (.append ?_ (.of_isName named)) ?_) value) ?_
  all_goals decide

private theorem of_named {start : Opening} (named : start.Named) : Unbracketed start.inner := by
  refine .append (.of_isName named.name) fun c mem => ?_
  obtain ⟨pair, memPair, memAttribute⟩ := List.mem_flatMap.mp mem
  exact of_pair (named.attributes pair memPair) c memAttribute

end Unbracketed

/-- Attributes are read in their order, with their values unescaped. -/
theorem attributes?_render {attributes : List (String × String)}
    (unquoted : ∀ pair ∈ attributes, '\x22' ∉ pair.1.toList) :
    attributes? ((attributes.flatMap renderAttribute).splitOn '\x22') = some attributes := by
  induction attributes with
  | nil => rfl
  | cons pair others ih =>
    have ⟨unquotedPair, unquotedOthers⟩ := List.forall_mem_cons.mp unquoted
    have key : '\x22' ∉ ' ' :: (pair.1.toList ++ ['=']) := by
      simp [unquotedPair]
    have value := quote_not_mem_escapeAttributeChars pair.2.toList
    have cut : ((pair :: others).flatMap renderAttribute).splitOn '\x22' =
        (' ' :: (pair.1.toList ++ ['='])) :: escapeAttributeChars pair.2.toList ::
          (others.flatMap renderAttribute).splitOn '\x22' := by
      rw [← List.splitOn_append_cons_self_of_not_mem value,
        ← List.splitOn_append_cons_self_of_not_mem key]
      simp [renderAttribute]
    rw [cut]
    simp [attributes?, attributeName?, ih unquotedOthers, unescape_escapeAttributeChars]

/-- An opening tag is read as what it was made of. -/
private theorem opening?_inner {start : Opening} (unbroken : ' ' ∉ start.name.toList)
    (unquoted : ∀ pair ∈ start.attributes, '\x22' ∉ pair.1.toList) :
    opening? start.inner = some start := by
  have inName : ∀ c ∈ start.name.toList, (c != ' ') = true := by
    intro c mem
    exact bne_iff_ne.mpr (ne_of_mem_of_not_mem mem unbroken)
  have stop : (start.attributes.flatMap renderAttribute).takeWhile (· != ' ') = [] ∧
      (start.attributes.flatMap renderAttribute).dropWhile (· != ' ') =
        start.attributes.flatMap renderAttribute := by
    cases start.attributes with
    | nil => exact ⟨rfl, rfl⟩
    | cons pair others => exact ⟨rfl, rfl⟩
  simp only [opening?, Opening.inner, List.takeWhile_append_of_pos inName,
    List.dropWhile_append_of_pos inName, stop, attributes?_render unquoted, List.append_nil,
    String.ofList_toList]
  rfl

namespace Opening.Named

variable {start : Opening}

private theorem opening?_inner (named : start.Named) : opening? start.inner = some start :=
  Xml.opening?_inner (not_mem_of_isName named.name (by decide)) fun pair mem =>
    not_mem_of_isName (named.attributes pair mem) (by decide)

/-- A name starts with a character, so an opening tag does not look like a closing one. -/
theorem exists_inner_eq_cons (named : start.Named) :
    ∃ c rest, start.inner = c :: rest ∧ c ≠ '/' := by
  have named := named.name
  simp only [isName, Bool.and_eq_true] at named
  cases chars : start.name.toList with
  | nil =>
    rw [chars] at named
    cases named.1
  | cons c rest =>
    have inner : start.inner = c :: (rest ++ start.attributes.flatMap renderAttribute) := by
      rw [Opening.inner, chars]
      rfl
    refine ⟨c, _, inner, ?_⟩
    rw [chars] at named
    rintro rfl
    have starts : inRanges nameStartRanges '/' = true := named.1
    exact absurd starts (by decide)

/-- An opening tag ends with its name or a quotation mark, so it does not look like that of an empty
element. -/
theorem getLast?_inner (named : start.Named) : start.inner.getLast? ≠ some '/' := by
  intro slash
  rcases List.eq_nil_or_concat start.attributes with none | ⟨others, pair, last⟩
  · rw [Opening.inner, none, List.flatMap_nil, List.append_nil] at slash
    exact not_mem_of_isName named.name (by decide) (List.mem_of_getLast? slash)
  · have ends : start.inner = (start.name.toList ++ others.flatMap renderAttribute ++
        ' ' :: (pair.1.toList ++ '=' :: '\x22' :: escapeAttributeChars pair.2.toList)) ++
          ['\x22'] := by
      simp [Opening.inner, last, renderAttribute]
    rw [ends, List.getLast?_concat] at slash
    exact absurd slash (by decide)

private theorem tag?_opening (named : start.Named) : tag? start.inner = some (.opening start) := by
  have head : start.inner.head? ≠ some '/' := by
    obtain ⟨c, rest, inner, noSlash⟩ := named.exists_inner_eq_cons
    simp [inner, noSlash]
  rw [tag?, if_neg head, if_neg named.getLast?_inner, named.opening?_inner]
  rfl

private theorem tag?_empty (named : start.Named) : tag? (start.inner ++ ['/']) = some (.empty start) := by
  have head : (start.inner ++ ['/']).head? ≠ some '/' := by
    obtain ⟨c, rest, inner, noSlash⟩ := named.exists_inner_eq_cons
    simp [inner, noSlash]
  rw [tag?, if_neg head, if_pos List.getLast?_concat, List.dropLast_concat, named.opening?_inner]
  rfl

end Opening.Named

private theorem tag?_closing (name : String) : tag? ('/' :: name.toList) = some (.closing name) := by
  simp [tag?]

/-! ## Pieces -/

namespace Place

variable (place : Place)

/-- A piece is read before all that stands behind it. -/
theorem read?_append {piece : List Char} (free : '>' ∉ piece) (rest : List Char) :
    place.read? (piece ++ '>' :: rest) = (place.step? piece).bind (read? · rest) := by
  rw [read?, List.splitOn_append_cons_self_of_not_mem free]
  cases pieces : rest.splitOn '>' with
  | nil => exact absurd pieces (List.splitOn_ne_nil '>' rest)
  | cons next more =>
    simp only [run?, read?, pieces]
    rfl

/-- A tag and the text in front of it are read before all that stands behind them. -/
theorem read?_tag {text inner : List Char} {tag : Tag} (textFree : Unbracketed text)
    (innerFree : Unbracketed inner) (read : tag? inner = some tag) (rest : List Char) :
    place.read? (text ++ '<' :: (inner ++ '>' :: rest)) =
      (place.pass? text tag).bind (read? · rest) := by
  have noLess : '<' ∉ text ∧ '<' ∉ inner :=
    ⟨fun mem => (textFree _ mem).1 rfl, fun mem => (innerFree _ mem).1 rfl⟩
  have noGreater : '>' ∉ text ++ '<' :: inner := by
    intro mem
    obtain mem | mem := List.mem_append.mp mem
    · exact (textFree _ mem).2 rfl
    · exact (innerFree _ (List.mem_of_ne_of_mem (by decide) mem)).2 rfl
  have step : place.step? (text ++ '<' :: inner) = place.pass? text tag := by
    rw [step?, List.splitOn_append_cons_self_of_not_mem noLess.1,
      List.splitOn_eq_singleton noLess.2]
    simp only [read, Option.bind_some]
  rw [← step, ← place.read?_append noGreater rest, List.append_assoc, List.cons_append]

end Place

/-! ## Elements -/

/-- Elements that hold nothing, one text or elements of this form, with names throughout. -/
inductive Regular : Node → Prop
  | empty (start : Opening) (named : start.Named) : Regular (start.node [])
  | text (start : Opening) (named : start.Named) (content : String) :
    Regular (start.node [.text content])
  | elements (start : Opening) {first : Node} {more : List Node} (named : start.Named)
    (children : ∀ child ∈ first :: more, Regular child) : Regular (start.node (first :: more))

/-- A regular node is an element. -/
theorem Regular.isElement {node : Node} (regular : Regular node) : node.isElement = true := by
  cases regular <;> rfl

namespace Opening

variable (start : Opening) (depth : Nat)

/-- An element that holds nothing is one closed tag. -/
theorem renderNode_empty (rest : List Char) :
    renderNode depth (start.node []) ++ rest = '<' :: (start.inner ++ '/' :: '>' :: rest) := by
  simp [renderNode, node, inner]

/-- An element that holds a text keeps it between its tags on one line. -/
theorem renderNode_text (content : String) (rest : List Char) :
    renderNode depth (start.node [.text content]) ++ rest =
      '<' :: (start.inner ++ '>' :: (escapeTextChars content.toList ++
        '<' :: ('/' :: start.name.toList ++ '>' :: rest))) := by
  simp [renderNode, renderNodes, node, inner, Node.isElement]

/-- An element that holds elements has them on lines of their own. -/
theorem renderNode_elements {first : Node} {more : List Node} (element : first.isElement = true)
    (rest : List Char) :
    renderNode depth (start.node (first :: more)) ++ rest =
      '<' :: (start.inner ++ '>' :: (renderNodes depth (first :: more) ++ (newLine depth ++
        '<' :: ('/' :: start.name.toList ++ '>' :: rest)))) := by
  simp [renderNode, node, inner, element]

end Opening

/-- A text that holds elements one after the other. Blanks may stand in front of every element and in
front of the closing tag of an element that holds elements; no others may stand anywhere. -/
inductive Laid : List Node → List Char → Prop
  | nil : Laid [] []
  | empty {start : Opening} {lead rest : List Char} {more : List Node} (named : start.Named)
    (blank : isBlank lead = true) (behind : Laid more rest) :
    Laid (start.node [] :: more) (lead ++ '<' :: (start.inner ++ '/' :: '>' :: rest))
  | text {start : Opening} {lead rest : List Char} {more : List Node} (named : start.Named)
    (content : String) (blank : isBlank lead = true) (behind : Laid more rest) :
    Laid (start.node [.text content] :: more)
      (lead ++ '<' :: (start.inner ++ '>' :: (escapeTextChars content.toList ++
        '<' :: ('/' :: start.name.toList ++ '>' :: rest))))
  | elements {start : Opening} {lead inside trail rest : List Char} {first : Node}
    {others more : List Node} (named : start.Named) (blank : isBlank lead = true)
    (within : Laid (first :: others) inside) (blankTrail : isBlank trail = true)
    (behind : Laid more rest) :
    Laid (start.node (first :: others) :: more)
      (lead ++ '<' :: (start.inner ++ '>' :: (inside ++ (trail ++
        '<' :: ('/' :: start.name.toList ++ '>' :: rest)))))

private theorem isBlank_newLine (depth : Nat) : isBlank (newLine depth) = true := by
  simp [isBlank, newLine]

/-- The layout of several elements is theirs if the layout of each is its own. -/
theorem laid_renderNodes {children : List Node} (depth : Nat)
    (each : ∀ child ∈ children, ∀ {lead rest : List Char} {more : List Node},
      isBlank lead = true → Laid more rest →
        Laid (child :: more) (lead ++ (renderNode (depth + 1) child ++ rest))) :
    Laid children (renderNodes depth children) := by
  induction children with
  | nil => exact .nil
  | cons child more ih =>
    have ⟨first, others⟩ := List.forall_mem_cons.mp each
    have blank : isBlank (if child.isElement then newLine (depth + 1) else []) = true := by
      split
      · exact isBlank_newLine (depth + 1)
      · rfl
    rw [renderNodes, List.append_assoc]
    exact first blank (ih others)

/-- The layout of an element at any level of nesting, with blanks in front of it. -/
theorem Regular.laid {node : Node} (regular : Regular node) (depth : Nat) {lead rest : List Char}
    {more : List Node} (blank : isBlank lead = true) (behind : Laid more rest) :
    Laid (node :: more) (lead ++ (renderNode depth node ++ rest)) := by
  induction regular generalizing depth lead rest more with
  | empty start named =>
    rw [start.renderNode_empty]
    exact .empty named blank behind
  | text start named content =>
    rw [start.renderNode_text]
    exact .text named content blank behind
  | @elements start first others named children inside =>
    rw [start.renderNode_elements depth (children first List.mem_cons_self).isElement]
    refine .elements named blank (laid_renderNodes depth fun child mem => ?_)
      (isBlank_newLine depth) behind
    intro lead rest more
    exact inside child mem (depth + 1)

/-- The closing tag at the end of an element that was entered at a place leads behind the element. -/
theorem read?_closing {start : Opening} (named : start.Named) {text : List Char}
    (textFree : Unbracketed text) {elements content : List Node}
    (holds : content? text elements = some content) (place : Place) (rest : List Char) :
    Place.read? ⟨elements, ⟨start, place.before⟩ :: place.around⟩
        (text ++ '<' :: ('/' :: start.name.toList ++ '>' :: rest)) =
      Place.read? ⟨place.before ++ [start.node content], place.around⟩ rest := by
  have innerFree : Unbracketed ('/' :: start.name.toList) :=
    .append (show Unbracketed ['/'] by decide) (.of_isName named.name)
  rw [Place.read?_tag _ textFree innerFree (tag?_closing start.name)]
  simp [Place.pass?, holds]

/-- An opening tag leads into its element. -/
theorem read?_opening {start : Opening} (named : start.Named) {lead : List Char}
    (blank : isBlank lead = true) (place : Place) (rest : List Char) :
    place.read? (lead ++ '<' :: (start.inner ++ '>' :: rest)) =
      Place.read? ⟨[], ⟨start, place.before⟩ :: place.around⟩ rest := by
  rw [place.read?_tag (.of_isBlank blank) (.of_named named) named.tag?_opening]
  simp [Place.pass?, blank]

/-- The tag of an empty element leads behind it. -/
theorem read?_empty {start : Opening} (named : start.Named) {lead : List Char}
    (blank : isBlank lead = true) (place : Place) (rest : List Char) :
    place.read? (lead ++ '<' :: (start.inner ++ '/' :: '>' :: rest)) =
      Place.read? ⟨place.before ++ [start.node []], place.around⟩ rest := by
  have inner : Unbracketed (start.inner ++ ['/']) := .append (.of_named named) (by decide)
  have layout : start.inner ++ '/' :: '>' :: rest = start.inner ++ ['/'] ++ '>' :: rest := by simp
  rw [layout, place.read?_tag (.of_isBlank blank) inner named.tag?_empty]
  simp [Place.pass?, blank]

/-- **Blanks between tags are no content.** Wherever a text that holds elements is read, and whatever
stands behind it, the elements come to stand behind those that were read before. -/
theorem Laid.read? {nodes : List Node} {text : List Char} (laid : Laid nodes text)
    (place : Place) (rest : List Char) :
    place.read? (text ++ rest) = Place.read? ⟨place.before ++ nodes, place.around⟩ rest := by
  induction laid generalizing place rest with
  | nil => simp
  | empty named blank behind ih =>
    simp only [List.append_assoc, List.cons_append]
    rw [read?_empty named blank, ih]
    simp
  | text named content blank behind ih =>
    have holds : content? (escapeTextChars content.toList) [] = some [.text content] := by
      rw [content?, unescape_escapeTextChars, String.ofList_toList]
    simp only [List.append_assoc, List.cons_append]
    rw [read?_opening named blank]
    refine (read?_closing named (unbracketed_escapeTextChars _) holds place _).trans ?_
    rw [ih]
    simp
  | @elements start lead inside trail rest' first others more named blank within blankTrail behind
      ihWithin ihBehind =>
    have holds : content? trail (first :: others) = some (first :: others) := by
      simp [content?, blankTrail]
    simp only [List.append_assoc, List.cons_append]
    rw [read?_opening named blank, ihWithin]
    refine (read?_closing named (.of_isBlank blankTrail) holds place _).trans ?_
    rw [ihBehind]
    simp

/-! ## Documents -/

/-- The declaration in front of a document, which is written like an opening tag. -/
def declarationOpening (version encoding : String) : Opening :=
  ⟨"?xml", [("version", version), ("encoding", encoding)]⟩

/-- The declaration is an opening that ends as a processing instruction does. -/
theorem renderDeclaration_eq (version encoding : String) :
    renderDeclaration version encoding =
      '<' :: ((declarationOpening version encoding).inner ++ ['?', '>']) := by
  show "<?xml".toList ++ renderAttribute ("version", version) ++
    renderAttribute ("encoding", encoding) ++ ['?', '>'] = _
  simp [Opening.inner, declarationOpening]

private theorem declaration?_inner (version encoding : String) :
    declaration? ((declarationOpening version encoding).inner ++ ['?']) =
      some (version, encoding) := by
  have read : opening? (declarationOpening version encoding).inner =
      some (declarationOpening version encoding) := by
    apply opening?_inner
    · show ' ' ∉ "?xml".toList
      decide
    · intro pair mem
      obtain rfl | rfl : pair = ("version", version) ∨ pair = ("encoding", encoding) := by
        simpa [declarationOpening] using mem
      · show '\x22' ∉ "version".toList
        decide
      · show '\x22' ∉ "encoding".toList
        decide
  rw [declaration?, if_pos List.getLast?_concat, List.dropLast_concat, read]
  rfl

private theorem unbracketed_declaration (version encoding : String) :
    Unbracketed ((declarationOpening version encoding).inner ++ ['?']) := by
  have pairs : (declarationOpening version encoding).inner =
      "?xml".toList ++ renderAttribute ("version", version) ++
        renderAttribute ("encoding", encoding) := by
    simp [declarationOpening, Opening.inner]
  rw [pairs]
  have named : isName "version" = true ∧ isName "encoding" = true := by decide
  exact .append (.append (.append (by decide) (.of_pair named.1)) (.of_pair named.2)) (by decide)

/-- A declaration and an element behind it, with blanks wherever they may stand, are read as a
document. -/
theorem read?_declaration (version encoding : String) {root : Node} {text trail : List Char}
    (laid : Laid [root] text) (blank : isBlank trail = true) :
    read? (String.ofList (renderDeclaration version encoding ++ text ++ trail)) =
      some ⟨version, encoding, root⟩ := by
  have layout : renderDeclaration version encoding ++ text ++ trail =
      ('<' :: ((declarationOpening version encoding).inner ++ ['?'])) ++ '>' :: (text ++ trail) := by
    simp [renderDeclaration_eq]
  have noGreater : '>' ∉ '<' :: ((declarationOpening version encoding).inner ++ ['?']) := by
    intro mem
    exact (unbracketed_declaration _ _ _ (List.mem_of_ne_of_mem (by decide) mem)).2 rfl
  have behind : Place.read? ⟨[root], []⟩ trail = some ⟨[root], []⟩ := by
    have free : '>' ∉ trail := fun mem => (Unbracketed.of_isBlank blank _ mem).2 rfl
    rw [Place.read?, List.splitOn_eq_singleton free, Place.run?, if_pos blank]
  have read : Place.run? ⟨[], []⟩ ((text ++ trail).splitOn '>') = some ⟨[root], []⟩ :=
    (laid.read? ⟨[], []⟩ trail).trans behind
  rw [read?, String.toList_ofList, layout, List.splitOn_append_cons_self_of_not_mem noGreater]
  simp only [declaration?_inner, read, Option.bind_eq_bind, Option.bind_some]

/-- Reading the layout of a document gives the document. -/
theorem read?_render {document : Document} (regular : Regular document.root) :
    read? document.render = some document := by
  have laid : Laid [document.root] (newLine 0 ++ (renderNode 0 document.root ++ [])) :=
    regular.laid 0 (isBlank_newLine 0) .nil
  have layout : document.render = String.ofList (renderDeclaration document.version document.encoding ++
      (newLine 0 ++ (renderNode 0 document.root ++ [])) ++ []) := by
    simp [Document.render]
  rw [layout, read?_declaration _ _ laid rfl]

end Harvest.Xml
