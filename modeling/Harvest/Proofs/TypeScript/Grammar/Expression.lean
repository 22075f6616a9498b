import Harvest.Proofs.TypeScript.Grammar.Arrow
import Harvest.Proofs.TypeScript.Grammar.Class
import Harvest.TypeScript.Grammar.Expression

/-!
# Expressions cover exactly what they take

From the primary expressions outwards: every parser of an expression answers with a tree that starts
with the first token taken for it and ends with the last one.
-/

namespace Harvest.TypeScript.Grammar

open Harvest.TypeScript.Parser Place

variable {g : Grammar} {p : Place} {b : Progress}

/-! ## Primary expressions -/

private theorem spans_wordLiteral : Spans wordLiteral :=
  fun _ => .start (.take takes_advance fun _ _ => .build from_nil)

private theorem Sound.bareArrow (sound : g.Sound) (isAsync : Bool) {parameter : Tree}
    (from_parameter : From p parameter) :
    Runs p b (bareArrow g p.current.start isAsync parameter) (Spanned p) :=
  .take (takes_expect _) fun _ _ => sound.arrowFrom _ (by simpa using from_parameter) from_nil

private theorem Sound.asyncName (sound : g.Sound) {async : Tree} (from_async : From p async)
    (start : async.span.start = p.current.start) :
    Runs p (.ended async.span.stop) (asyncName g p.current.start async) (Spanned p) := by
  refine .look fun _ => .look fun _ => .look fun _ => .ite (.look fun _ => .answer from_async start) ?_
  refine .take spans_boundIdentifier.takes fun parameter from_parameter => .look fun _ => .ite ?_ ?_
  · exact .take sound.typeHere fun typing from_typing => .build (by simp [from_async, from_typing])
  · exact sound.bareArrow _ from_parameter

private theorem Sound.identifierOrArrow (sound : g.Sound) (mayBeArrow : Bool) :
    Spans (identifierOrArrow g mayBeArrow) := by
  refine fun p => .start (.span spans_identifier fun name from_name start => .look fun _ => ?_)
  have answered := Runs.answer from_name start
  refine .ite answered (.look fun _ => .ite (sound.asyncName from_name start) (.look fun _ => ?_))
  refine .ite ?_ answered
  exact .look fun _ => sound.bareArrow _ from_name

private theorem Sound.asyncPrimary (sound : g.Sound) (mayBeArrow : Bool) : Spans (asyncPrimary g mayBeArrow) := by
  refine fun p => .start (.look fun _ => .ite ?_ (.look fun _ => ?_))
  · exact sound.functionFrom _ _ _ (.refl p) from_nil
  extract_lets plain generic
  have plain_runs : Runs p .here (plain ()) (Spanned p) := by
    refine .look fun _ => .ite ?_ (sound.identifierOrArrow _ p)
    refine .take takes_advance fun _ _ => .spanFrom fun span covers start => ?_
    exact sound.parenthesisOrArrow _ (fun _ _ => start) fun _ is => by cases is; exact covers
  refine .ite (.attemptSpan ?_ (fun _ taken start => .answer taken start) plain_runs) plain_runs
  exact .take takes_advance fun _ _ => sound.genericAsyncArrow

private theorem spans_privateOperand (name : String) : Spans (privateOperand name) := by
  refine fun p => .start (.take takes_advance fun _ _ => .look fun _ => .check ?_)
  exact .build from_nil

private theorem Sound.primary (sound : g.Sound) : Spans (primary g) := by
  refine fun p => .start (.look fun s => .token ?_)
  split
  · exact .take takes_advance fun _ _ => .build from_nil
  · exact sound.asyncPrimary _ p
  · exact sound.functionFrom _ _ _ (.refl p) from_nil
  · exact spans_wordLiteral p
  · exact spans_wordLiteral p
  · exact spans_wordLiteral p
  · exact sound.classFrom (.refl p) from_nil _ _
  · exact sound.identifierOrArrow _ p
  · exact spans_numericLiteral p
  · exact spans_numericLiteral p
  · exact spans_stringLiteral p
  · exact sound.templateLiteral p
  · exact spans_privateOperand _ p
  · exact .within (sound.arrayLiteral p)
  · exact sound.objectLiteral p
  · refine sound.parenthesisOrArrow _ (fun _ same => ?_) nofun
    rw [same]
    rfl
  · rename_i is
    exact patternLiteral_runs (p.opens is)
  · rename_i is
    exact patternLiteral_runs (p.opens is)
  · refine .read sound.decorators fun decorating from_decorating => ?_
    exact sound.classFrom (.refl p) from_decorating _ _
  · exact .refuse

/-! ## Accesses and calls -/

instance : Looks instantiates := by unfold instantiates; infer_instance

private theorem Sound.taggedTemplate (sound : g.Sound) {tag : Tree} {types : List Tree} (from_tag : From p tag)
    (from_types : From p types) : Runs p b (taggedTemplate g p.current.start tag types) (Spanned p) :=
  .look fun _ => .take (sound.substitutions _) fun parts from_parts =>
    .build (by simp [from_tag, from_parts, from_types])

private theorem Sound.genericSubscript (sound : g.Sound) (calls : Bool) {object : Tree}
    (from_object : From p object) :
    Runs p b (genericSubscript g calls p.current.start object) (Found (Spanned p)) := by
  refine .take sound.typeArguments fun types from_types => .look fun _ => .ite ?_ (.look fun _ => .ite ?_ ?_)
  · refine .take sound.arguments fun args from_args => .spanFrom fun span covers start => ?_
    refine .pure fun q since tree is => ?_
    cases is
    exact spanned_of_ended (.call covers from_object from_args from_types) start since
  · exact .found (sound.taggedTemplate from_object from_types)
  · exact .look fun _ => .ite (.found (.build (by simp [from_object, from_types]))) .nothing

private theorem memberOf_runs {object property : Tree} {name : Option String} {optional : Bool}
    (from_object : From p object) (from_property : From p property) :
    Runs p .past (memberOf p.current.start object property name optional) (Spanned p) := by
  have member (form : Form) : Runs p .past (build p.current.start form [object, property]) (Spanned p) :=
    .build (by simp [from_object, from_property])
  unfold memberOf
  split
  · exact .check (.check (member _))
  · exact .refuse
  · exact member _

private theorem Sound.subscript (sound : g.Sound) (calls computed : Bool) {object : Tree}
    (from_object : From p object) (start : object.span.start = p.current.start) :
    Runs p (.ended object.span.stop) (subscript g calls computed p.current.start object)
      fun longer => Spanned p (longer.getD object) := by
  refine .look fun _ => .look fun _ => .ite (.check ?_) (.look fun _ => ?_)
  · refine .past (.take takes_advance fun _ _ => .longer (.build ?_))
    simpa using from_object
  extract_lets tag rest
  have rest_runs : Runs p (.ended object.span.stop) (rest ())
      fun longer => Spanned p (longer.getD object) := by
    refine .ate (eats_eat _) fun optional c ended => ?_
    refine .check (.look fun _ => .ite (.mark fun q since => .start ?_) (.look fun _ => ?_))
    · refine .take takes_advance fun _ _ => .take sound.expressionWithIn.takes fun key from_key => ?_
      refine .take (takes_expect _) fun _ _ => ?_
      refine .built (by simpa using from_key) fun property from_property _ => ?_
      exact .unmark since.walk (.longer (memberOf_runs from_object (Sited.earlier since.walk from_property)))
    extract_lets access untyped finish
    -- nothing was taken behind the object only if no `?.` was, and only then the reading may end here
    have finish_runs {types : List Tree} (from_types : From p types) {c : Progress}
        (ended : optional = false → c = .ended object.span.stop) :
        Runs p c (finish types) fun longer => Spanned p (longer.getD object) := by
      refine .look fun _ => .ite (.take sound.arguments fun args from_args => ?_) (.check ?_)
      · refine .spanFrom fun span covers start => .pure fun q since => ?_
        exact spanned_of_ended (.call covers from_object from_args from_types) start since
      cases optional with
      | true =>
        refine .got (.take takes_memberName fun member from_member => ?_)
        exact .longer (memberOf_runs from_object from_member.1)
      | false =>
        rw [ended rfl]
        refine .eat (eats_eat _) (.take takes_memberName fun member from_member => ?_) (.check ?_)
        · exact .longer (memberOf_runs from_object from_member.1)
        · refine .look fun _ => .ite (.longer (sound.taggedTemplate from_object from_nil)) ?_
          exact .asLong (.answer from_object start)
    split
    · rename_i isTyped
      refine .take sound.typeArguments fun types from_types => finish_runs from_types fun is => ?_
      simp [is] at isTyped
    · exact .got (finish_runs from_nil ended)
  refine .ite (.attemptSpan (sound.genericSubscript _ from_object) ?_ rest_runs) rest_runs
  exact fun tree taken start => .pure fun q since => spanned_of_ended taken start since

private theorem Sound.subscripts (sound : g.Sound) (calls computed : Bool) {object : Tree}
    (from_object : From p object) (start : object.span.start = p.current.start) :
    Runs p (.ended object.span.stop) (subscripts g calls computed p.current.start object) (Spanned p) :=
  .extendSpan (fun _ taken start => sound.subscript calls computed taken start) from_object start

private theorem Sound.importExpression (sound : g.Sound) (calls : Bool) : Spans (importExpression g calls) := by
  intro p
  have referred (form : Form) : Runs p .past (do
      let reference ← build p.current.start form
      Grammar.subscripts g calls true p.current.start reference) (Spanned p) :=
    .built from_nil fun _ taken start => sound.subscripts _ _ taken start
  refine .start (.take (takes_expectWord _) fun _ _ => .eat (eats_eat _) (.look fun word => ?_) (referred _))
  split
  · exact .take takes_advance fun _ _ => referred _
  · exact .take takes_advance fun _ _ => referred _
  · exact .take takes_advance fun _ _ => referred _
  · exact .refuse

private theorem Sound.newTarget (sound : g.Sound) : Runs p b (newTarget g p.current.start) (Spanned p) :=
  .take (takes_expectWord _) fun _ _ => .look fun _ => .look fun _ =>
    .built from_nil fun _ taken start => sound.subscripts _ _ taken start

instance : Looks isAtAngle := by unfold isAtAngle; infer_instance

/-- The type arguments of a call are given up unless an argument list follows. -/
theorem Sound.callTypeArguments (sound : g.Sound) :
    Runs p b (callTypeArguments g)
      (Found fun types q => Taken p types q ∧ q.current.token = .punctuator .parenLeft) := by
  refine .take sound.typeArguments fun types from_types => .mark fun q past => .isAt ?_
  refine .pure fun _ same found is => ?_
  split at is
  · rename_i isCall
    cases is
    exact same ▸ ⟨⟨past, from_types⟩, eq_of_beq isCall⟩
  · cases is

/-- Where no argument list follows, nothing was taken. -/
theorem Sound.callTypeArguments?_then (sound : g.Sound) {call plain : List Tree → Parser Tree}
    {Q : Tree → Place → Prop} (called : ∀ types, From p types → Runs p b.onward (call types) Q)
    (otherwise : Runs p b (plain []) Q) :
    Runs p b (callTypeArguments? g >>= fun types =>
      isAt .parenLeft >>= fun isCall => if isCall then call types else plain types) Q := by
  have untyped : Runs p b (isAt .parenLeft >>= fun isCall => if isCall then call [] else plain []) Q :=
    .look fun _ => .ite (.weaken (called [] from_nil)) otherwise
  unfold callTypeArguments?
  simp only [bind_assoc]
  refine .look fun isAngle => ?_
  cases isAngle with
  | false => exact .got untyped
  | true =>
    simp only [↓reduceIte, bind_assoc, pure_bind]
    refine .attempt sound.callTypeArguments (fun types q found => .isAt ?_) untyped
    -- the arguments were tried only as far as a parenthesis, so the call is certain
    rw [if_pos (beq_iff_eq.mpr found.2)]
    exact .unmarkPast found.1.1 (.weakenPast (called types found.1.2))

/-- A construction, or an expression without calls, covers what it takes. -/
theorem Sound.parse_constructed (sound : g.Sound) : Spans (Grammar.constructed g) := by
  refine fun p => .start (.look fun token => ?_)
  split
  · refine .take takes_advance fun _ _ => .eat (eats_eat _) sound.newTarget ?_
    refine .take sound.constructed.takes fun callee from_callee => .check ?_
    refine sound.callTypeArguments?_then (fun types from_types => ?_) (.build (by simpa using from_callee))
    refine .take sound.arguments fun args from_args => ?_
    refine .built (by simp [from_callee, from_args, from_types]) fun _ taken start => ?_
    exact sound.subscripts _ _ taken start
  · exact .take takes_advance fun _ _ => .built from_nil fun _ taken start => sound.subscripts _ _ taken start
  · exact sound.importExpression _ p
  · refine .span sound.primary fun tree taken start => .ite (.answer taken start) ?_
    exact sound.subscripts _ _ taken start

/-- A left-hand side covers its members, calls and templates. -/
theorem Sound.parse_leftHandSide (sound : g.Sound) : Spans (Grammar.leftHandSide g) := by
  refine fun p => .start (.look fun token => ?_)
  split
  · exact .take takes_advance fun _ _ => .built from_nil fun _ taken start => sound.subscripts _ _ taken start
  · exact sound.importExpression _ p
  · refine .span sound.parse_constructed fun callee from_callee start => .ite (.answer from_callee start) ?_
    refine sound.callTypeArguments?_then (fun types from_types => ?_) (.answer from_callee start)
    refine .take sound.arguments fun args from_args => .spanFrom fun span covers start => ?_
    exact sound.subscripts _ _ (.call covers from_callee from_args from_types) start

/-- A decorator is taken with its mark. -/
theorem Sound.parse_decorator (sound : g.Sound) : Takes (Grammar.decorator g) := by
  refine fun p => .take (takes_expect _) fun _ _ => Takes.last (Spans.takes fun q => .start ?_)
  refine .eat (eats_eat _) ?_ (.span spans_identifier fun _ taken start => sound.subscripts _ _ taken start)
  refine .take sound.expressionWithIn.takes fun inner taken => .take (takes_expect _) fun _ _ => ?_
  exact .built (by simpa using taken) fun _ taken start => sound.subscripts _ _ taken start

/-! ## Unary operators -/

instance : Looks isAtUnaryOperator := by
  unfold isAtUnaryOperator
  refine ⟨fun p => .look fun token => ?_⟩
  split <;> exact Looks.stays p

instance : Looks isAtUpdate := by unfold isAtUpdate; infer_instance

private theorem Sound.awaitExpression (sound : g.Sound) : Spans (awaitExpression g) := by
  refine fun p => .start (.take (takes_expectWord _) fun _ _ => .look fun _ => .check (.look fun _ => ?_))
  refine .look fun _ => .look fun _ => .look fun _ => .take sound.unary.takes fun operand taken => ?_
  exact .build (by simpa using taken)

private theorem Sound.typeAssertion (sound : g.Sound) : Spans (typeAssertion g) := by
  refine fun p => .start (.take (takes_expect _) fun _ _ => .eat (eats_eatWord _) ?_ ?_)
  · refine .take (takes_expect _) fun _ _ => .take sound.unary.takes fun operand taken => ?_
    exact .build (by simpa using taken)
  · refine .take sound.typeHere fun typing from_typing => .take (takes_expect _) fun _ _ => ?_
    refine .take sound.unary.takes fun operand from_operand => ?_
    exact .build (by simp [from_operand, from_typing])

/-- A unary expression covers its operators and its operand. -/
theorem Sound.parse_unary (sound : g.Sound) : Spans (Grammar.unary g) := by
  refine fun p => .start (.look fun _ => .ite (sound.typeAssertion p) (.look fun _ => .ite ?_ ?_))
  · refine .take takes_advance fun _ _ => .take sound.unary.takes fun operand taken => .look fun _ => ?_
    exact .build (by simpa using taken)
  refine .look fun _ => .ite ?_ (.look fun _ => .ite (sound.awaitExpression p) ?_)
  · refine .take takes_advance fun _ _ => .take sound.unary.takes fun operand taken => ?_
    exact .build (by simpa using taken)
  refine .span sound.parse_leftHandSide fun operand taken start => .look fun _ => .look fun _ => ?_
  refine .ite (.answer taken start) (.look fun _ => .take takes_advance fun _ _ => ?_)
  exact .build (by simpa using taken)

/-! ## Binary operators -/

/-- The operators that the tokens do not show are made of angle brackets. -/
theorem greaterOperator?_angles {here : List Char} {operator : BinaryOperator} {length : Nat}
    (opens : Punctuator.greater.Opens here) (is : greaterOperator? here = some operator)
    (long : operator.length = some length) :
    length ≤ here.length ∧ ∀ c ∈ here.take length, c = '<' ∨ c = '>' ∨ c = '=' := by
  obtain ⟨body, rfl⟩ := opens
  unfold greaterOperator? at is
  split at is <;> cases is <;> cases long <;> simp_all

private theorem binaryOperator?_greater {withoutIn : Bool} {lexeme : Lexeme} {operator : BinaryOperator}
    {length : Nat} (is : binaryOperator? withoutIn lexeme = some operator)
    (long : operator.length = some length) :
    lexeme.token = .punctuator .greater ∧ greaterOperator? lexeme.here = some operator := by
  unfold binaryOperator? at is
  split at is
  · split at is <;> cases is
    cases long
  · cases is
    cases long
  · rename_i token
    split at is
    -- only the operators that a `>` starts have a length of their own
    all_goals first
      | exact ⟨token, is⟩
      | cases is <;> cases long
  · cases is

private theorem Sound.assertionAfter (sound : g.Sound) {operand : Tree} (from_operand : From p operand) :
    Runs p b (assertionAfter g p.current.start operand) (Spanned p) := by
  refine .look fun _ => .take takes_advance fun _ _ => .look fun _ => .ite ?_ ?_
  · exact .take takes_advance fun _ _ => .build (by simpa using from_operand)
  · refine .take sound.typeHere fun typing from_typing => ?_
    exact .build (by simp [from_operand, from_typing])

private theorem Sound.operatorAfter (sound : g.Sound) (above : Nat) {left : Tree} (from_left : From p left)
    (start : left.span.start = p.current.start) :
    Runs p (.ended left.span.stop) (operatorAfter g above p.current.start left)
      fun longer => Spanned p (longer.getD left) := by
  have ends : Runs p (.ended left.span.stop) (pure none) fun longer => Spanned p (longer.getD left) :=
    .asLong (.answer from_left start)
  have joined (above : Nat) (isMistake : Tree → Bool) (form : Form) : Runs p .past (do
      let right ← g (.operators above)
      mistakeIf (isMistake right)
      return some (← build p.current.start form [left, right]))
      fun longer => Spanned p (longer.getD left) := by
    refine .take (sound.operators _).takes fun right from_right => .look fun _ => .longer (.build ?_)
    simp [from_left, from_right]
  refine .look fun _ => .look fun _ => .look fun _ => .ite (.longer (sound.assertionAfter from_left)) ?_
  -- the operator is looked up in the token behind the left side, which is therefore marked
  refine .mark fun q since => .get fun s same => .look fun _ => ?_
  subst same
  dsimp only
  split
  · exact .back since ends
  rename_i operator is
  refine .ite (.back since ends) ?_
  split
  · exact .back since (.take takes_advance fun _ _ => .check (joined _ _ _))
  · rename_i length long
    obtain ⟨token, is⟩ := binaryOperator?_greater is long
    obtain ⟨fits, brackets⟩ := greaterOperator?_angles (Place.opens _ token) is long
    exact .advanceTo (.angles length fits brackets) (.unmark since.walk (.check (joined _ _ _)))

/-- A binary expression covers its operands, whatever binds above it. -/
theorem Sound.parse_operators (sound : g.Sound) (above : Nat) : Spans (Grammar.operators g above) := by
  refine fun p => .start (.span sound.unary fun left taken start => .ite (.answer taken start) ?_)
  exact .extendSpan (fun _ taken start => sound.operatorAfter above taken start) taken start

/-! ## Assignments -/

private theorem Sound.conditional (sound : g.Sound) : Spans (conditional g) := by
  refine fun p => .start (.span (sound.operators 0) fun condition taken start => .look fun _ => ?_)
  exact .ite (.answer taken start) (sound.branches taken)

private theorem Sound.yieldExpression (sound : g.Sound) : Spans (yieldExpression g) := by
  refine fun p => .start (.take (takes_expectWord _) fun _ _ => .look fun _ => .check ?_)
  refine .look fun _ => .look fun _ => .ite (.build from_nil) (.read (eats_eat _).reads fun _ _ => ?_)
  exact .take sound.assignment.takes fun operand taken => .build (by simpa using taken)

private theorem Sound.plainAssignment (sound : g.Sound) : Spans (plainAssignment g) := by
  refine fun p => .look fun _ => .look fun _ => .ite (sound.yieldExpression p) (.start ?_)
  refine .look fun _ => .look fun _ => .look fun _ => .span sound.conditional fun tree taken start => ?_
  exact .ite (.answer taken start) (sound.assignmentAfter taken start)

private theorem Sound.genericArrow (sound : g.Sound) (p : Place) :
    Runs p .here (genericArrow g) (Found (Spanned p)) := by
  refine .start (.take (sound.typeParameters _ _) fun types from_types => ?_)
  refine .take sound.plainAssignment.takes fun tree from_tree => ?_
  split
  · cases from_tree with
    | node _ inner => exact .found (.build (from_append.mpr ⟨inner, from_types⟩))
  · exact .nothing

/-- An assignment covers all of its forms: arrow functions, conditionals, `yield`. -/
theorem Sound.parse_assignment (sound : g.Sound) : Spans (Grammar.assignment g) := by
  intro p
  have plain := sound.plainAssignment p
  refine .look fun _ => .look fun _ => .ite (.attemptSpan (.within (sound.genericArrow p)) ?_ ?_) plain
  · exact fun _ taken start => .answer taken start
  · exact plain

end Harvest.TypeScript.Grammar
