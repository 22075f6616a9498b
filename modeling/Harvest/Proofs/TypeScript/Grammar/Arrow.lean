import Harvest.Proofs.TypeScript.Grammar.Function
import Harvest.TypeScript.Grammar.Arrow

/-!
# Parentheses and arrow functions take what they cover

The items in parentheses are read before it is known what they are. A sequence of several expressions
covers the stretch from its first item to its last, and the parser puts that span together from the
spans of the two items. It is a stretch of what was taken, since the items were taken one behind the
other (`InOrder`).
-/

namespace Harvest.TypeScript.Grammar

open Harvest.Text (Span)
open Harvest.TypeScript.Parser Place

variable {g : Grammar} {o p q r : Place} {b : Progress}

/-! ## Assignments and conditionals -/

/-- An operator that is made of angle brackets. -/
theorem take_angles (taken : List Char) {rest : List Char} (here : p.current.here = taken ++ rest)
    (brackets : ∀ c ∈ taken, c = '<' ∨ c = '>' ∨ c = '=') :
    Take p (.before rest (p.current.start + taken.length)) := by
  have step : Take p (.before (p.current.here.drop taken.length) (p.current.start + taken.length)) := by
    refine .angles _ (by simp [here]) fun c member => brackets c ?_
    rwa [here, List.take_left] at member
  rwa [here, List.drop_left] at step

/-- What follows the target of an assignment makes its tree longer. -/
theorem Sound.assignmentAfter (sound : g.Sound) {target : Tree} (from_target : From p target)
    (start : target.span.start = p.current.start) :
    Runs p (.ended target.span.stop) (assignmentAfter g p.current.start target) (Spanned p) := by
  have assigned (form : Form) : Runs p .past (do
      let value ← g .assignment
      build p.current.start form [target, value]) (Spanned p) :=
    .take sound.assignment.takes fun value from_value => .build (by simp [from_target, from_value])
  refine .mark fun q since => .get fun s same => ?_
  subst same
  dsimp only
  split
  · exact .back since (.look fun _ => .take takes_advance fun _ _ => assigned _)
  · exact .back since (.look fun _ => .take takes_advance fun _ _ => assigned _)
  · exact .back since (.look fun _ => .take takes_advance fun _ _ => assigned _)
  · split
    · rename_i here
      refine .look fun _ => .advanceTo (take_angles ['>', '>', '='] here (by simp)) ?_
      exact .unmark since.walk (assigned _)
    · rename_i here
      refine .look fun _ => .advanceTo (take_angles ['>', '>', '>', '='] here (by simp)) ?_
      exact .unmark since.walk (assigned _)
    · exact .back since (.answer from_target start)
  · exact .back since (.answer from_target start)

/-- The branches of a conditional expression cover it from the start of the condition. -/
theorem Sound.branches (sound : g.Sound) {condition : Tree} (from_condition : From p condition) :
    Runs p b (branches g p.current.start condition) (Spanned p) := by
  refine .take (takes_expect _) fun _ _ => .take sound.assignment.within.takes fun first from_first => ?_
  refine .take (takes_expect _) fun _ _ => .take sound.assignment.within.takes fun second from_second => ?_
  exact .build (by simp [from_condition, from_first, from_second])

/-! ## Items -/

private theorem Sound.coverExpression (sound : g.Sound) : Spans (coverExpression g) := by
  refine fun p => .start (.look fun _ => .ite ?_ (.look fun _ => .look fun _ => .ite ?_ ?_))
  · refine .span (sound.operators 0) fun tree from_tree start => .ite (.answer from_tree start) ?_
    exact sound.assignmentAfter from_tree start
  · refine .take takes_advance fun _ _ => .take (sound.operators 0).takes fun operand taken => ?_
    exact .build (by simpa using taken)
  · exact sound.spreadable p

instance : Looks isAtOptionalMark := by unfold isAtOptionalMark; infer_instance

instance : Sited CoverItem := ⟨fun p item => From p item.tree, fun walk taken => Sited.earlier walk taken⟩

/-- The tree covers a stretch that was taken between two places. -/
def Between (p : Place) (tree : Tree) (q : Place) : Prop :=
  ∃ a b, Walk p a ∧ Past a b ∧ Walk b q ∧ tree.span = ⟨a.current.start, b.lastStop⟩

/-- A tree between two places lies before every later one. -/
theorem Between.onward {tree : Tree} (between : Between p tree q) (walk : Walk q r) :
    Between p tree r := by
  obtain ⟨a, b, first, past, last, span⟩ := between
  exact ⟨a, b, first, past, last.trans walk, span⟩

/-- A tree between two places lies behind every earlier one. -/
theorem Between.earlier {tree : Tree} (walk : Walk o p) (between : Between p tree q) :
    Between o tree q := by
  obtain ⟨a, b, first, past, last, span⟩ := between
  exact ⟨a, b, walk.trans first, past, last, span⟩

private theorem between_of_spanned {tree : Tree} (walk : Walk o p) (spanned : Spanned p tree q) :
    Between o tree q :=
  ⟨p, q, walk, spanned.1.1, .refl q, spanned.2⟩

/-- An item that may still be annotated. The modifiers of a parameter stand before the place where its
tree starts. -/
structure Begun (p : Place) (tree : Tree) (q : Place) : Prop where
  started : ∃ m, Walk p m ∧ Past m q ∧ From m tree ∧ tree.span.start = m.current.start
  between : Between p tree q

private theorem begun_of_spanned {tree : Tree} (walk : Walk o p) (spanned : Spanned p tree q) :
    Begun o tree q where
  started := ⟨p, walk, spanned.1.1, spanned.1.2, by rw [spanned.2]⟩
  between := between_of_spanned walk spanned

/-- A begun tree stays begun over a walk. -/
theorem Begun.onward {tree : Tree} (begun : Begun p tree q) (walk : Walk q r) : Begun p tree r where
  started := by
    obtain ⟨m, first, past, rest⟩ := begun.started
    exact ⟨m, first, past.onward walk, rest⟩
  between := begun.between.onward walk

/-- A begun tree has taken at least one token. -/
theorem Begun.past {tree : Tree} (begun : Begun p tree q) : Past p q := by
  obtain ⟨m, first, past, _⟩ := begun.started
  exact first.past past

private theorem Begun.from {tree : Tree} (begun : Begun p tree q) : From p tree := by
  obtain ⟨m, first, _, from_tree, _⟩ := begun.started
  exact Sited.earlier first from_tree

/-- What is known of an item. -/
def TakenBetween (p : Place) (item : CoverItem) (q : Place) : Prop :=
  Taken p item q ∧ Between p item.tree q

/-- A begun tree is an item between its places. -/
theorem Begun.give {tree : Tree} {patterned : Bool} (begun : Begun p tree q) :
    Runs q .here (pure ⟨tree, patterned⟩) (TakenBetween p) :=
  .pure fun _ same => same ▸ ⟨⟨begun.past, begun.from⟩, begun.between⟩

/-- A type after an item makes its tree longer, or leaves it as it is. -/
theorem Begun.annotate {tree tree' : Tree} {m : Place} (begun : Begun p tree q) (walk : Walk p m)
    (past : Past m q) (from_tree : From m tree')
    (same : tree' = tree ∨ tree'.span = ⟨m.current.start, q.lastStop⟩) : Begun p tree' q := by
  obtain rfl | span := same
  · exact begun
  · exact begun_of_spanned walk ⟨⟨past, from_tree⟩, span⟩

private theorem Sound.coverItem (sound : g.Sound) (p : Place) : Runs p .here (coverItem g) (TakenBetween p) := by
  -- modifiers stand between the place `p` of the item and the place `q` of its expression
  refine .start (.look fun _ => .read reads_parameterModifier fun modified _ => .mark fun q walk => ?_)
  refine .bind (sound.coverExpression q) fun tree r spanned => .look fun optional => ?_
  extract_lets finish branch
  have finish_runs (tree : Tree) {r : Place} (begun : Begun p tree r) :
      Runs r .here (finish tree) (TakenBetween p) := by
    refine .look fun _ => .look fun _ => .ite (.check (.look fun _ => ?_)) begun.give
    obtain ⟨m, walk, past, from_tree, start⟩ := begun.started
    refine .read sound.typing? fun typing from_typing => .mark fun q onward => ?_
    have from_typing := Sited.earlier past.walk from_typing
    have past := past.onward onward
    refine .bind (annotate_runs past from_tree start from_typing) ?_
    rintro tree _ ⟨rfl, from_tree, same⟩
    have begun := (begun.onward onward).annotate walk past from_tree same
    refine .eat (eats_eat _) (.unmarkPast begun.past ?_) begun.give
    refine .take sound.assignment.takes fun default from_default => ?_
    refine .bind (.build (by simp [begun.from, from_default])) fun tree q spanned => ?_
    exact (begun_of_spanned (.refl p) spanned).give
  have branch_runs {r : Place} (begun : Begun p tree r) : Runs r .here (branch ()) (TakenBetween p) := by
    refine .look fun _ => .ite (.unmarkPast begun.past ?_) (.got (finish_runs tree begun))
    refine .bind (sound.branches begun.from) fun tree q spanned => ?_
    exact finish_runs tree (begun_of_spanned (.refl p) spanned)
  have begun := begun_of_spanned walk spanned
  refine .ite (.take takes_advance fun _ _ => .mark fun r' past => .check ?_) (branch_runs begun)
  exact branch_runs (begun.onward (Past.walk past))

/-! ## Items in order -/

/-- The trees were taken one behind the other between two places. -/
inductive InOrder : Place → List Tree → Place → Prop where
  | nil {p q : Place} (walk : Walk p q) : InOrder p [] q
  | cons {p q r : Place} {tree : Tree} {trees : List Tree} (first : Between p tree q)
      (others : InOrder q trees r) : InOrder p (tree :: trees) r

/-- Trees in order lie behind every earlier place. -/
theorem InOrder.earlier {trees : List Tree} (walk : Walk o p) (ordered : InOrder p trees q) :
    InOrder o trees q := by
  cases ordered with
  | nil rest => exact .nil (walk.trans rest)
  | cons first others => exact .cons (first.earlier walk) others

/-- The last tree ends with a token that was taken. -/
theorem InOrder.last {trees : List Tree} (ordered : InOrder p trees q) :
    ∀ tree ∈ trees.getLast?, ∃ b, Past p b ∧ tree.span.stop = b.lastStop := by
  induction ordered with
  | nil => nofun
  | @cons p q r tree trees first others ih =>
    obtain ⟨a, b, before, past, after, span⟩ := first
    intro last is
    rw [List.getLast?_cons] at is
    cases ended : trees.getLast? with
    | none =>
      obtain rfl : tree = last := by simpa [ended] using is
      exact ⟨b, before.past past, by rw [span]⟩
    | some other =>
      obtain rfl : other = last := by simpa [ended] using is
      obtain ⟨b', past', stop⟩ := ih other ended
      exact ⟨b', (before.past past).onward (after.trans past'.walk), stop⟩

private theorem InOrder.covers {first : Tree} {others : List Tree} (ordered : InOrder p (first :: others) q) :
    p.Covers ⟨first.span.start, (others.getLast?.getD first).span.stop⟩ := by
  cases ordered with
  | cons between others =>
    obtain ⟨a, b, before, past, after, span⟩ := between
    cases ended : List.getLast? _ with
    | none => exact ⟨a, b, before, past, by simp [span]⟩
    | some last =>
      obtain ⟨b', past', stop⟩ := others.last last ended
      exact ⟨a, b', before, past.onward (after.trans past'.walk), by simp [span, stop]⟩

private theorem repeatUpTo_inOrder {step : Parser (Option (CoverItem × Bool))}
    (each : ∀ p, Runs p .here step fun found q => Read p found q ∧ ∀ item ∈ found, Between p item.1.tree q)
    (bound : Nat) : ∀ p, Runs p .here (repeatUpTo bound step) fun items q =>
      Read p items q ∧ InOrder p (items.map (·.1.tree)) q := by
  induction bound with
  | zero => exact fun p => .refuse
  | succ bound ih =>
    intro p
    refine .bind (each p) ?_
    rintro found q ⟨⟨walk, from_found⟩, between⟩
    cases found with
    | none => exact .pure fun _ same => same ▸ ⟨⟨walk, from_nil⟩, .nil walk⟩
    | some item =>
      refine .bind (ih q) ?_
      rintro items r ⟨⟨onward, from_items⟩, ordered⟩
      refine .pure fun _ same => same ▸ ⟨⟨walk.trans onward, ?_⟩, .cons (between item rfl) ordered⟩
      exact from_cons.mpr ⟨from_some.mp from_found, Sited.earlier walk from_items⟩

private theorem Sound.coverItems (sound : g.Sound) (p : Place) :
    Runs p .here (coverItems g) fun answer q =>
      Taken p answer.1 q ∧ ∃ r, InOrder p (answer.1.map (·.tree)) r := by
  refine .within (.take (takes_expect _) fun _ _ => .mark fun q past => ?_)
  refine .bind (.look fun _ => repeatUpTo_inOrder (fun p => ?_) _ q) ?_
  · refine .look fun _ => .ite (.pure fun _ same => ?_) (.bind (sound.coverItem p) fun item q taken => ?_)
    · exact ⟨⟨same ▸ .refl p, from_none⟩, nofun⟩
    have given (trailing : Bool) {r : Place} (walk : Walk q r) :
        Read p (some (item, trailing)) r ∧ ∀ other ∈ some (item, trailing), Between p other.1.tree r := by
      refine ⟨⟨taken.1.1.walk.trans walk, from_some.mpr ⟨taken.1.2, trivial⟩⟩, fun _ is => ?_⟩
      cases is
      exact taken.2.onward walk
    refine .look fun _ => .ite (.pure fun _ same => given _ (same ▸ .refl q)) ?_
    exact .take (takes_expect _) fun _ _ => .pure fun _ past => given _ (Past.walk past)
  · rintro items r ⟨⟨walk, from_items⟩, ordered⟩
    have from_items := Sited.earlier (Past.walk past) from_items
    refine .take (takes_expect _) fun _ _ => .pure fun q' past' => ⟨⟨?_, ?_⟩, r, ?_⟩
    · exact past.onward (walk.trans (Past.walk past'))
    · exact from_map from_items fun _ both => both.1
    · rw [List.map_map]
      exact ordered.earlier (Past.walk past)

/-! ## Arrow functions -/

/-- An arrow function covers what was taken since the start of its parameters. -/
theorem Sound.arrowFrom (sound : g.Sound) (isAsync : Bool) {parameters types : List Tree}
    (from_parameters : From p parameters) (from_types : From p types) :
    Runs p b (arrowFrom g p.current.start isAsync parameters types) (Spanned p) :=
  .take (sound.arrowBody _ _) fun body from_body =>
    .build (by simp [from_parameters, from_body, from_types])

private theorem arrowParameters_then {β : Type} {items : List CoverItem} {trailing : Bool}
    {k : List Tree → Parser β} {Q : β → Place → Prop} (next : Runs p b (k (items.map (·.tree))) Q) :
    Runs p b (arrowParameters items trailing >>= k) Q := by
  simp only [arrowParameters, bind_assoc, pure_bind]
  exact .look fun _ => .look fun _ => next

private theorem Sound.conditionalArrow (sound : g.Sound) (isAsync : Bool) {items : List CoverItem}
    (from_items : From p items) (trailing : Bool) :
    Runs p b (conditionalArrow g p.current.start isAsync items trailing) (Found (Spanned p)) := by
  refine .take (sound.resultType _) fun result from_result => .take (takes_expect _) fun _ _ => ?_
  refine arrowParameters_then (.bind (sound.arrowFrom _ (from_map from_items fun _ => id) ?_) ?_)
  · simpa using from_result
  · intro arrow q spanned
    refine .look fun _ => .look fun _ => .ite .nothing (.pure fun _ same found is => ?_)
    cases is
    exact same ▸ spanned

private theorem Sound.arrowResult (sound : g.Sound) : Seeks (arrowResult g) := by
  refine fun p => .take (sound.resultType _) fun result from_result => .look fun _ => ?_
  refine .pure fun q past => ⟨fun _ => Past.walk past, fun _ is => ?_⟩
  split at is
  · cases is
    exact ⟨past, from_result⟩
  · cases is

private theorem parenthesized_runs {items : List Tree} (from_items : From p items)
    (ordered : ∃ q, InOrder p items q) (trailing : Bool) :
    Runs p .past (parenthesized p.current.start items trailing) (Spanned p) := by
  obtain ⟨q, ordered⟩ := ordered
  unfold parenthesized
  refine .check ?_
  split
  · exact .refuse
  · exact .build from_items
  · exact .build (by simpa using .node ordered.covers from_items)

/-- After the word `async` the place of the word is where the tree starts. -/
theorem Sound.parenthesisOrArrow (sound : g.Sound) (mayBeArrow : Bool) {async : Option Span}
    (start : ∀ q, b.Since p q → (async.map (·.start)).getD q.current.start = p.current.start)
    (covers : ∀ span ∈ async, p.Covers span) :
    Runs p b (parenthesisOrArrow g mayBeArrow async) (Spanned p) := by
  refine .mark fun q since => .start ?_
  rw [start q since]
  refine .bind (sound.coverItems q) ?_
  rintro ⟨items, trailing⟩ r ⟨⟨past, from_items⟩, last, ordered⟩
  have from_items : From p items := Sited.earlier since.walk from_items
  have from_trees : From p (items.map (·.tree)) := from_map from_items fun _ => id
  refine .unmarkPast (since.walk.past past) (.look fun _ => .look fun _ => ?_)
  extract_lets trees finish plain
  have finish_runs {result : Option Tree} (from_result : From p result) :
      Runs p .past (finish result) (Spanned p) := by
    refine .look fun _ => .ite (.look fun _ => .check ?_) (.look fun _ => ?_)
    · refine .take (takes_expect _) fun _ _ => ?_
      exact arrowParameters_then (sound.arrowFrom _ from_trees (from_toList.mpr from_result))
    split
    · rename_i word
      refine .spanFrom fun span span_covers start => ?_
      have from_word : From p (Tree.node (.identifier "async") word []) := .node (covers word rfl) nofun
      exact .answer (.call span_covers from_word from_trees from_nil) start
    · exact parenthesized_runs from_trees ⟨last, ordered.earlier since.walk⟩ trailing
  have plain_runs : Runs p .past (plain ()) (Spanned p) :=
    .look fun _ => .look fun _ => .atOr sound.arrowResult.attempt from_none fun _ taken => finish_runs taken
  refine .ite (.attemptSpan (sound.conditionalArrow _ from_items _) ?_ plain_runs) plain_runs
  exact fun arrow taken start => .answer taken start

/-- An asynchronous arrow function with type parameters covers what was taken. -/
theorem Sound.genericAsyncArrow (sound : g.Sound) :
    Runs p b (genericAsyncArrow g p.current.start) (Found (Spanned p)) := by
  refine .take (sound.typeParameters _ _) fun typeParams from_typeParams => ?_
  refine .take (takes_expect _) fun _ _ => .read sound.formalParameters fun parameters from_parameters => ?_
  refine .take (takes_expect _) fun _ _ => .optionalAt (sound.resultType _) fun result from_result => ?_
  refine .take (takes_expect _) fun _ _ => .found (sound.arrowFrom _ from_parameters ?_)
  exact from_append.mpr ⟨from_typeParams, from_result⟩

end Harvest.TypeScript.Grammar
