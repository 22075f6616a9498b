import Harvest.Proofs.Message.CallOrder
import Harvest.Proofs.TypeScript.Grammar.Item
import Harvest.TypeScript.Grammar

/-!
# What a module is read from

The rules of the grammar are sound at every depth, by induction on it. So every tree of a module covers
a stretch of tokens that were taken behind the place where reading starts (`Module.items_taken`), and a
rule for expressions answers with a tree that covers exactly what it took (`spans_grammar`).
-/

namespace Harvest.TypeScript

open Harvest.Text (Span Reaches Cuts byteSize dropByteOrderMark)
open Harvest.TypeScript.Parser Place

/-! ## The knot -/

/-- One level of the rules is sound when the levels below are: the case of each rule. -/
theorem Grammar.Sound.parse {g : Grammar} (sound : g.Sound) : Grammar.Sound fun rule => rule.parse g where
  statement := sound.parse_statement
  moduleItem := sound.parse_moduleItem
  assignment := sound.parse_assignment
  operators := sound.parse_operators
  unary := sound.parse_unary
  leftHandSide := sound.parse_leftHandSide
  constructed := sound.parse_constructed
  binding := sound.parse_binding
  type := sound.parse_type
  plainType := sound.parse_plainType
  typeOperator := sound.parse_typeOperator
  decorator := sound.parse_decorator

private theorem sound_grammar (depth : Nat) : (grammar depth).Sound := by
  induction depth with
  | zero => constructor <;> intros <;> exact fun _ => .refuse
  | succ depth ih => exact ih.parse

/-- The rules that read expressions. -/
def Rule.IsExpression : Rule → Prop
  | .assignment | .operators _ | .unary | .leftHandSide | .constructed => True
  | _ => False

private theorem spans_grammar {rule : Rule} (expression : rule.IsExpression) (depth : Nat) :
    Spans (grammar depth rule) := by
  have sound := sound_grammar depth
  cases rule with
  | assignment => exact sound.assignment
  | operators above => exact sound.operators above
  | unary => exact sound.unary
  | leftHandSide => exact sound.leftHandSide
  | constructed => exact sound.constructed
  | _ => exact expression.elim

/-! ## Modules -/

private theorem Grammar.Sound.moduleItems {g : Grammar} (sound : g.Sound) : Reads (moduleItems g) :=
  reads_many fun _ => .look fun _ => .ite (.give from_none)
    (.take sound.moduleItem fun _ taken => .give (from_some.mpr taken))

/-- The place where reading starts: behind a byte order mark and a line for the operating system. -/
def Module.origin (text : List Char) : Place :=
  let opening := dropInterpreterLine (dropByteOrderMark text) 0
  .before opening.1 opening.2

private theorem dropInterpreterLine_reaches (text : List Char) (pos : Nat) :
    Reaches text pos (dropInterpreterLine text pos).1 (dropInterpreterLine text pos).2 := by
  unfold dropInterpreterLine
  split
  · rename_i rest
    refine .consAscii rfl (.consAscii rfl ⟨_, ?_, rfl⟩)
    exact (List.prefix_iff_eq_append.mp (List.takeWhile_prefix _)).symm
  · exact .refl _ _

/-- The origin of a module lies in its text without the byte order mark. -/
theorem Module.origin_reaches (text : List Char) :
    Reaches (dropByteOrderMark text) 0 (origin text).text (origin text).lastStop :=
  dropInterpreterLine_reaches _ _

/-- The items of a parsed module were taken behind its origin. -/
theorem Module.items_taken {isDeclaration : Bool} {text : List Char} {module : Module}
    (parsed : Module.parse? isDeclaration text = some module) : From (origin text) module.items := by
  obtain ⟨⟨items, s⟩, ran, given⟩ := Option.bind_eq_some_iff.mp parsed
  cases given
  exact ((sound_grammar _).moduleItems _ rfl ran).2

private theorem Tree.TakenFrom.part {p : Place} {tree part : Tree} (taken : tree.TakenFrom p)
    (inside : part ∈ tree.parts) : part.TakenFrom p := by
  cases taken with
  | node _ inner => exact inner part inside
  | hole => cases inside
  | call _ called given typed =>
    simp only [Tree.parts, List.mem_cons, List.mem_append] at inside
    obtain rfl | inside | inside := inside
    · exact called
    · exact given part inside
    · exact typed part inside

/-- What stands at an address in a taken tree was taken as well. -/
theorem Tree.TakenFrom.at {p : Place} {address : Address} : ∀ {tree part : Tree}, tree.TakenFrom p →
    tree.at? address = some part → part.TakenFrom p := by
  induction address with
  | nil =>
    rintro tree _ taken ⟨⟩
    exact taken
  | cons index rest ih =>
    intro tree part taken found
    obtain ⟨middle, here, found⟩ := Option.bind_eq_some_iff.mp found
    exact ih (taken.part (List.mem_of_getElem? here)) found

/-! ## What a tree covers -/

/-- The tree covers the characters from the next token at one place behind `o` to the last token taken at
another, or it is a hole of an array and stands before a token. -/
inductive Tree.ReadAs (o : Place) (tree : Tree) : List Char → Prop where
  | taken {a b : Place} {cut : List Char} (walk : Walk o a) (past : Past a b)
      (span : tree.span = ⟨a.current.start, b.lastStop⟩) (characters : a.current.here = cut ++ b.text) :
      ReadAs o tree cut
  | hole {a : Place} (walk : Walk o a) (span : tree.span = ⟨a.current.start, a.current.start⟩)
      (hole : tree.form? = some .hole) : ReadAs o tree []

variable {text : List Char} {o p q : Place}

/-- From the next token at one place to the last token taken at another. -/
theorem cuts_of_past (reaches : Reaches text 0 p.text p.lastStop) (past : Past p q) :
    ∃ front cut, Cuts text ⟨p.current.start, q.lastStop⟩ front cut ∧ p.current.here = cut ++ q.text := by
  obtain ⟨front, rfl, start⟩ := reaches.trans p.reaches_here
  obtain ⟨cut, here, stop⟩ := past.reaches
  refine ⟨front, cut, ⟨⟨q.text, ?_⟩, by simpa using start, ?_⟩, here⟩
  · rw [here, List.append_assoc]
  · simpa [start] using stop

/-- A taken tree cuts its span out of the text, at both ends between two characters. -/
theorem Tree.TakenFrom.cuts {tree : Tree} (reaches : Reaches text 0 o.text o.lastStop)
    (taken : tree.TakenFrom o) : ∃ front cut, Cuts text tree.span front cut ∧ tree.ReadAs o cut := by
  have covered {tree : Tree} (covers : o.Covers tree.span) :
      ∃ front cut, Cuts text tree.span front cut ∧ tree.ReadAs o cut := by
    obtain ⟨a, b, walk, past, span⟩ := covers
    obtain ⟨front, cut, cuts, characters⟩ := cuts_of_past (reaches.trans walk.reaches) past
    exact ⟨front, cut, span ▸ cuts, .taken walk past span characters⟩
  cases taken with
  | node covers _ => exact covered covers
  | call covers _ _ _ => exact covered covers
  | @hole q walk =>
    obtain ⟨front, rfl, start⟩ := (reaches.trans walk.reaches).trans q.reaches_here
    have start : q.current.start = byteSize front := by simpa using start
    exact ⟨front, [], ⟨⟨q.current.here, by rw [List.append_nil]⟩, start, start⟩, .hole walk rfl rfl⟩

/-- An expression covers exactly what was taken for it. -/
theorem grammar_cuts {depth : Nat} {rule : Rule} (expression : rule.IsExpression) {s s' : State} {tree : Tree}
    (reaches : Reaches text 0 s.text s.lastStop) (answered : grammar depth rule s = some (tree, s')) :
    ∃ front cut, Cuts text tree.span front cut ∧ s.current.here = cut ++ s'.text := by
  obtain ⟨⟨past, -⟩, span⟩ := spans_grammar expression depth s.toPlace rfl answered
  rw [span]
  exact cuts_of_past reaches past

end Harvest.TypeScript
