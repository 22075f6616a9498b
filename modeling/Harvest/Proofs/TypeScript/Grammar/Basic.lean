import Harvest.Proofs.TypeScript.Runs
import Harvest.TypeScript.Grammar.Parameter

/-!
# Names, keys, patterns and parameters take what they cover

What the rules of a grammar have to do (`Grammar.Sound`), and what the small pieces of the grammar do
when its rules do so. An expression and the target of a binding cover exactly what was taken for them;
of types, declarations and statements it is enough that all trees in them cover stretches of what was
taken.
-/

namespace Harvest.TypeScript.Grammar

open Harvest.TypeScript.Parser Place

/-- Every rule takes at least one token and answers with a tree from what it took. -/
structure Sound (g : Grammar) : Prop where
  statement (declarations : Bool) : Takes (g (.statement declarations))
  moduleItem : Takes (g .moduleItem)
  assignment : Spans (g .assignment)
  operators (above : Nat) : Spans (g (.operators above))
  unary : Spans (g .unary)
  leftHandSide : Spans (g .leftHandSide)
  constructed : Spans (g .constructed)
  binding : Spans (g .binding)
  type : Takes (g .type)
  plainType : Takes (g .plainType)
  typeOperator : Takes (g .typeOperator)
  decorator : Takes (g .decorator)

variable {g : Grammar} {p q : Place} {b : Progress}

/-! ## Names -/

/-- An identifier name is one token. -/
theorem spans_identifierName : Spans identifierName := by
  refine fun p => .start (.look fun name => ?_)
  split
  · exact .refuse
  · exact .take takes_advance fun _ _ => .build from_nil

/-- An identifier is one token. -/
theorem spans_identifier : Spans identifier := by
  refine fun p => .span spans_identifierName fun tree taken start => ?_
  split
  · exact .refuse
  · exact .look fun _ => .look fun _ => .check (.check (.look fun _ => .look fun _ => .answer taken start))

/-- A bound identifier is one token. -/
theorem spans_boundIdentifier : Spans boundIdentifier :=
  fun _ => .span spans_identifier fun _ taken start => .look fun _ => .answer taken start

/-- The name behind a dot is taken, private or not. -/
theorem takes_memberName : Takes memberName := by
  refine fun p => .look fun token => ?_
  split
  · refine .start (.take takes_advance fun _ _ => .built from_nil fun tree taken _ => ?_)
    exact .past (.taken ⟨taken, from_none⟩)
  · refine .take spans_identifierName.takes fun tree taken => ?_
    exact .taken ⟨taken, fun _ _ => trivial⟩

/-- A string literal is one token. -/
theorem spans_stringLiteral : Spans stringLiteral := by
  refine fun p => .start (.look fun token => ?_)
  split
  · exact .look fun _ => .take takes_advance fun _ _ => .build from_nil
  · exact .refuse

/-- A numeric literal is one token. -/
theorem spans_numericLiteral : Spans numericLiteral := by
  refine fun p => .start (.look fun token => ?_)
  split
  · exact .look fun _ => .take takes_advance fun _ _ => .build from_nil
  · exact .take takes_advance fun _ _ => .build from_nil
  · exact .refuse

/-! ## Modifiers -/

instance : Looks followsModifier := by
  refine ⟨fun p => .look fun _ => .ite (Looks.stays p) (.look fun token => ?_)⟩
  split <;> exact Looks.stays p

/-- A modifier is taken or left as a name. -/
theorem reads_modifier (allowed : List String) (stopAtBlock : Bool) :
    Reads (modifier allowed stopAtBlock) := by
  refine fun p => .look fun name => ?_
  split
  · exact .give from_none
  refine .ite (.give from_none) (.look fun _ => .ite (.give from_none) (Seeks.attempt (fun q => ?_) p))
  refine .take takes_advance fun _ _ => .look fun _ => .pure fun _ past => ?_
  exact ⟨fun _ => Past.walk past, fun _ _ => ⟨past, trivial⟩⟩

/-- A modifier of a parameter is taken or left as its name. -/
theorem reads_parameterModifier : Reads parameterModifier := by
  refine fun p => .look fun _ => .look fun _ => .ite ?_ (.give trivial)
  exact .read (reads_modifier _ _) fun _ _ => .give trivial

/-! ## Expressions in lists -/

/-- An assignment spans its tree also where `in` is an operator. -/
theorem Sound.assignmentWithIn (sound : g.Sound) : Spans (assignmentWithIn g) := sound.assignment.within

/-- A comma expression covers its assignments. -/
theorem Sound.expression (sound : g.Sound) : Spans (expression g) := by
  refine fun p => .start (.span sound.assignment fun first from_first start => .look fun _ => ?_)
  refine .ite (.read (reads_manyAfter _ sound.assignment.takes) fun others from_others => ?_)
    (.answer from_first start)
  exact .build (from_cons.mpr ⟨from_first, from_others⟩)

/-- An expression spans its tree also where `in` is an operator. -/
theorem Sound.expressionWithIn (sound : g.Sound) : Spans (expressionWithIn g) := sound.expression.within

/-- An expression with or without a spread in front covers both. -/
theorem Sound.spreadable (sound : g.Sound) : Spans (spreadable g) := by
  refine fun p => .start (.eat (eats_eat _) ?_ (sound.assignmentWithIn p))
  exact .take sound.assignmentWithIn.takes fun operand taken => .build (by simpa using taken)

/-- The arguments of a call are taken with their parentheses. -/
theorem Sound.arguments (sound : g.Sound) : Takes (arguments g) :=
  Takes.within fun _ => .take (takes_expect _) fun _ _ =>
    (takes_commaSeparated _ sound.spreadable.takes).last

/-- A property name covers its token or its brackets. -/
theorem Sound.propertyName (sound : g.Sound) : Spans (propertyName g) := by
  refine fun p => .start (.look fun token => ?_)
  split
  · exact spans_identifierName p
  · exact spans_stringLiteral p
  · exact spans_numericLiteral p
  · exact spans_numericLiteral p
  · refine .take takes_advance fun _ _ => .take sound.assignmentWithIn.takes fun first from_first => ?_
    refine .read (reads_many fun q => ?_) fun others from_others => ?_
    · refine .eat (eats_eat _) (.look fun _ => ?_) (.give from_none)
      exact .take sound.assignmentWithIn.takes fun _ taken => .give (from_some.mpr taken)
    · exact .take (takes_expect _) fun _ _ => .build (from_cons.mpr ⟨from_first, from_others⟩)
  · exact .refuse

/-- The decorators in front of a declaration are read. -/
theorem Sound.decorators (sound : g.Sound) : Reads (decorators g) := by
  refine reads_many fun p => .look fun _ => .ite ?_ (.give from_none)
  exact .take sound.decorator fun _ taken => .give (from_some.mpr taken)

/-! ## Types at the edge of other forms -/

/-- A type of its own is taken, whatever surrounds it. -/
theorem Sound.typeHere (sound : g.Sound) : Takes (typeHere g) := sound.type.within

/-- A type annotation is read where there is one. -/
theorem Sound.typing? (sound : g.Sound) : Reads (typing? g) := by
  refine fun p => .eat (eats_eat _) ?_ (.give from_nil)
  exact .take sound.typeHere fun type taken => .give (by simpa using taken)

instance : Looks isAtAngle := by unfold isAtAngle; infer_instance

private theorem takes_openAngle : Takes openAngle := by
  refine fun p => .isAt ?_
  split
  · rename_i is
    obtain ⟨tail, here⟩ := p.opens (eq_of_beq is)
    refine .get fun s same => ?_
    subst same
    rintro s' _ _ same ran
    cases ran
    exact ⟨(Take.angles 1 (by simp [here]) (by simp [here])).past, trivial⟩
  · exact (takes_expect _).last

/-- Type arguments are taken with their angle brackets. -/
theorem Sound.typeArguments (sound : g.Sound) : Takes (typeArguments g) :=
  fun _ => .take takes_openAngle fun _ _ => (takes_commaSeparated _ sound.typeHere).last

private theorem Sound.typeParameter (sound : g.Sound) (variance constant : Bool) :
    Takes (typeParameter g variance constant) := by
  refine Spans.takes fun p => .start (.read (reads_many (reads_modifier _ _)) fun _ _ => ?_)
  refine .look fun _ => .look fun _ => .look fun _ => .take spans_identifierName.takes fun _ _ => ?_
  refine .optional (eats_eatWord _) sound.typeHere fun bound from_bound => ?_
  refine .optional (eats_eat _) sound.typeHere fun default from_default => ?_
  exact .build (from_append.mpr ⟨from_bound, from_default⟩)

/-- Type parameters are taken with their angle brackets. -/
theorem Sound.typeParameters (sound : g.Sound) (variance constant : Bool) :
    Takes (typeParameters g variance constant) :=
  fun _ => .take (takes_expect _) fun _ _ =>
    (takes_commaSeparated _ (sound.typeParameter variance constant)).last

/-- Type parameters are read where there are some. -/
theorem Sound.typeParameters? (sound : g.Sound) (variance constant : Bool) :
    Reads (typeParameters? g variance constant) :=
  fun _ => .look fun _ => .ite (sound.typeParameters variance constant).reads.last (.give from_nil)

/-- The type of a result is taken with the mark in front of it. -/
theorem Sound.resultType (sound : g.Sound) (mark : Punctuator) : Takes (resultType g mark) := by
  refine fun p => .take (takes_expect _) fun _ _ => Takes.last fun q => .start ?_
  refine .look fun _ => .look fun _ => .look fun _ => .look fun _ => .maybe takes_advance.reads ?_
  refine .look fun _ => .look fun _ => .look fun _ => .ite ?_ sound.typeHere.last
  refine .take spans_identifierName.takes fun _ _ => .ite ?_ (.got (.node from_nil))
  refine .take takes_advance fun _ _ => .take sound.typeHere fun narrowed taken => .got ?_
  exact .node (by simpa using taken)

/-! ## Patterns -/

/-- A type that is added to a pattern makes it longer, up to the last token taken. -/
theorem annotate_runs {pattern : Tree} {typing : List Tree} (past : Past p q)
    (from_pattern : From p pattern) (start : pattern.span.start = p.current.start)
    (from_typing : From p typing) :
    Runs q .here (annotate pattern typing) fun tree r =>
      r = q ∧ From p tree ∧ (tree = pattern ∨ tree.span = ⟨p.current.start, q.lastStop⟩) := by
  rintro s tree s' rfl ran
  cases pattern with
  | call => cases ran; exact ⟨rfl, from_pattern, .inl rfl⟩
  | node form span parts =>
    cases ran
    have inner : From p parts := by
      cases from_pattern with
      | node _ inner => exact inner
      | hole => exact from_nil
    have same : (⟨span.start, s.lastStop⟩ : Text.Span) = ⟨p.current.start, s.lastStop⟩ := by
      rw [← start]
      rfl
    exact ⟨rfl, .node ⟨p, _, .refl p, past, same⟩ (from_append.mpr ⟨inner, from_typing⟩), .inr same⟩

/-- The same for a pattern that is the whole of what was read. -/
theorem annotate_then {β : Type} {Q : β → Place → Prop} {pattern : Tree} {typing : List Tree}
    {k : Tree → Parser β} (from_pattern : From p pattern)
    (start : pattern.span.start = p.current.start) (from_typing : From p typing)
    (next : ∀ tree, From p tree → Runs p .past (k tree) Q) :
    Runs p .past (annotate pattern typing >>= k) Q := by
  refine .mark fun q past => ?_
  refine .bind (annotate_runs past from_pattern start from_typing) fun tree r annotated => ?_
  rw [annotated.1]
  exact .unmarkPast past (next tree annotated.2.1)

private theorem Sound.bindingElement (sound : g.Sound) : Spans (bindingElement g) := by
  refine fun p => .start (.span sound.binding fun target from_target start => ?_)
  refine .eat (eats_eat _) ?_ (.answer from_target start)
  refine .take sound.assignmentWithIn.takes fun default from_default => .look fun _ => .look fun _ => ?_
  exact .build (by simp [from_target, from_default])

private theorem reads_ambientOptional : Reads ambientOptional := by
  refine fun p => .look fun _ => .look fun _ => .ite ?_ (.give trivial)
  exact .read (eats_eat _).reads fun _ _ => .give trivial

private theorem Sound.arrayBinding (sound : g.Sound) : Spans (arrayBinding g) := by
  refine fun p => .start (.take (takes_expect _) fun _ _ => ?_)
  refine .read (reads_many fun q => ?_) fun elements from_elements => ?_
  · refine .look fun _ => .ite (.give from_none) (.start (.eat (eats_eat _) ?_ ?_))
    · exact .give (from_some.mpr (.hole (.refl q)))
    refine .eat (eats_eat _) ?_ ?_
    · refine .take sound.binding.takes fun target from_target => ?_
      refine .built (by simpa using from_target) fun element from_element _ => .look fun _ => .ite ?_ ?_
      · exact .look fun _ => .take (takes_expect _) fun _ _ => .give (from_some.mpr from_element)
      · exact .give (from_some.mpr from_element)
    · refine .take sound.bindingElement.takes fun element from_element => .look fun _ => ?_
      exact .maybe (takes_expect _).reads (.give (from_some.mpr from_element))
  · refine .take (takes_expect _) fun _ _ => .read reads_ambientOptional fun _ _ => ?_
    exact .build from_elements

private theorem Sound.propertyBinding (sound : g.Sound) : Takes (propertyBinding g) := by
  refine fun p => .start (.eat (eats_eat _) ?_ ?_)
  · exact .take sound.binding.takes fun target from_target => .node (by simpa using from_target)
  refine .take sound.propertyName.takes fun key from_key => .eat (eats_eat _) ?_ ?_
  · refine .take sound.bindingElement.takes fun target from_target => ?_
    exact .node (by simp [from_key, from_target])
  split
  · exact .refuse
  refine .eat (eats_eat _) ?_ (.look fun _ => .node from_nil)
  refine .take sound.assignmentWithIn.takes fun default from_default => ?_
  exact .node (by simp [from_key, from_default])

instance (elements : List Tree) (trailing : Bool) : Looks (checkObjectRest elements trailing) := by
  fun_induction checkObjectRest elements trailing <;> infer_instance

private theorem Sound.objectBinding (sound : g.Sound) : Spans (objectBinding g) := by
  refine fun p => .start (.take (takes_expect _) fun _ _ => ?_)
  refine .read (reads_many fun q => ?_) fun properties from_properties => ?_
  · refine .look fun _ => .ite (.give from_none) (.take sound.propertyBinding fun property taken => ?_)
    refine .look fun _ => .ite (.give (from_some.mpr ⟨taken, trivial⟩)) ?_
    exact .take (takes_expect _) fun _ _ => .give (from_some.mpr ⟨taken, trivial⟩)
  · refine .take (takes_expect _) fun _ _ => .look fun _ => .read reads_ambientOptional fun _ _ => ?_
    exact .build (from_map from_properties fun _ both => both.1)

/-- The target of a binding covers its identifier or its pattern. -/
theorem Sound.parse_binding (sound : g.Sound) : Spans (Grammar.binding g) := by
  refine fun p => .look fun token => ?_
  split
  · exact spans_boundIdentifier p
  · exact sound.arrayBinding p
  · exact sound.objectBinding p
  · exact .refuse

/-! ## Parameters -/

/-- A parameter without modifiers is taken. -/
theorem Sound.plainParameter (sound : g.Sound) : Takes (plainParameter g) := by
  refine fun p => .start (.read reads_parameterModifier fun _ _ => .mark fun q walk => ?_)
  refine .span sound.bindingElement fun target from_target start => ?_
  refine .read (eats_eat _).reads fun _ _ => .look fun _ => .check ?_
  refine .read sound.typing? fun typing from_typing => .look fun _ => ?_
  refine annotate_then from_target start from_typing fun tree from_tree => ?_
  have from_tree : From p tree := Sited.earlier walk from_tree
  refine .unmark walk (.eat (eats_eat _) ?_ (.got (.look fun _ => .taken from_tree)))
  refine .look fun _ => .take sound.assignment.takes fun default from_default => ?_
  refine .look fun _ => .look fun _ => ?_
  refine .built (by simp [from_tree, from_default]) fun pattern from_pattern _ => ?_
  exact .look fun _ => .past (.taken from_pattern)

private theorem Sound.restParameter (sound : g.Sound) : Runs p b (restParameter g p.current.start) (Taken p) := by
  refine .take sound.binding.takes fun target from_target => .eat (eats_eat _) ?_ (.got ?_)
  · refine .look fun _ => .take sound.assignment.takes fun default from_default => .got ?_
    refine .read sound.typing? fun typing from_typing => ?_
    exact .node (by simp [from_target, from_default, from_typing])
  · refine .read sound.typing? fun typing from_typing => ?_
    exact .node (by simp [from_target, from_typing])

/-- Parameters are read up to the closing parenthesis. -/
theorem Sound.parameterList (sound : g.Sound) {parameter : Parser Tree} (takes : Takes parameter) :
    Reads (parameterList g parameter) := by
  refine reads_many fun p => .look fun _ => .ite (.give from_none) (.start ?_)
  refine .read sound.decorators fun decorating from_decorating => .mark fun q walk => .start ?_
  refine .eat (eats_eat _) ?_ (.unmark walk ?_)
  · refine .bind sound.restParameter fun pattern r taken => ?_
    have past : Past p r := Walk.past walk taken.1
    have from_pattern : From p pattern := Sited.earlier walk taken.2
    refine .unmarkPast past (.look fun _ => .ite ?_ ?_)
    · refine .look fun _ => .take (takes_expect _) fun _ _ => ?_
      exact .built (by simp [from_decorating, from_pattern]) fun _ taken _ => .give (from_some.mpr taken)
    · exact .built (by simp [from_decorating, from_pattern]) fun _ taken _ => .give (from_some.mpr taken)
  · refine .take takes fun pattern from_pattern => ?_
    refine .built (by simp [from_decorating, from_pattern]) fun tree taken _ => .look fun _ => ?_
    exact .maybe (takes_expect _).reads (.give (from_some.mpr taken))

/-- The parameters of a function are read. -/
theorem Sound.formalParameters (sound : g.Sound) : Reads (formalParameters g) :=
  sound.parameterList sound.plainParameter

/-- The parameters of a signature are taken with their closing parenthesis. -/
theorem Sound.signatureParameters (sound : g.Sound) : Takes (signatureParameters g) := by
  refine fun p => .read sound.formalParameters fun parameters taken => .check ?_
  exact .take (takes_expect _) fun _ _ => .taken taken

end Harvest.TypeScript.Grammar
