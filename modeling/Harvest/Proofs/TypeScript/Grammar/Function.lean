import Harvest.Proofs.TypeScript.Grammar.Basic
import Harvest.TypeScript.Grammar.Literal

/-!
# Functions and literals take what they cover
-/

namespace Harvest.TypeScript.Grammar

open Harvest.TypeScript.Parser Place

variable {g : Grammar} {o p : Place} {b : Progress}

/-! ## Bodies -/

/-- A block covers its braces. -/
theorem Sound.block (sound : g.Sound) : Spans (block g) := by
  refine fun p => .start (.take (takes_expect _) fun _ _ => ?_)
  refine .read (reads_manyUntil _ (sound.statement true)) fun statements from_statements => ?_
  exact .take (takes_expect _) fun _ _ => .build from_statements

private theorem Sound.bracedBody (sound : g.Sound) (isSimple : Bool) : Takes (bracedBody g isSimple) :=
  fun _ => .take sound.block.takes.within fun _ taken => .look fun _ => .taken taken

/-- The body of a function is read, with its braces if it has any. -/
theorem Sound.functionBody (sound : g.Sound) (isAsync isGenerator isSimple : Bool) :
    Reads (functionBody g isAsync isGenerator isSimple) := by
  refine fun p => .look fun _ => .look fun _ => .look fun _ => .within ?_
  refine .read reads_eatSemicolon fun _ _ => .ite (.give from_none) ?_
  exact .take (sound.bracedBody isSimple) fun _ taken => .give (from_some.mpr taken)

/-- The body of an arrow function is taken, a block or an expression. -/
theorem Sound.arrowBody (sound : g.Sound) (isAsync isSimple : Bool) :
    Takes (arrowBody g isAsync isSimple) :=
  fun _ => .look fun _ => .look fun _ => .look fun _ =>
    .within (.ite (sound.bracedBody isSimple).last sound.assignment.takes.last)

/-! ## Heads -/

instance : Sited FunctionRest where
  From p rest := From p rest.parameters ∧ From p rest.body ∧ From p rest.types
  earlier walk all := ⟨Sited.earlier walk all.1, Sited.earlier walk all.2.1, Sited.earlier walk all.2.2⟩

/-- The parts of a function are its decorators and what was read of it. -/
theorem from_parts {rest : FunctionRest} {decorating : List Tree} (from_rest : From p rest)
    (from_decorating : From p decorating) : From p (rest.parts decorating) := by
  obtain ⟨parameters, body, types⟩ := from_rest
  simp [FunctionRest.parts, parameters, from_decorating, body, types]

/-- What follows the name of a function is taken. -/
theorem Sound.functionRest (sound : g.Sound) {parameters : Parser (List Tree)}
    (reads : Reads parameters) (isAsync isGenerator : Bool) :
    Takes (functionRest g parameters isAsync isGenerator) := by
  unfold Grammar.functionRest
  extract_lets enter
  refine Takes.within fun p => .read (sound.typeParameters? _ _) fun typeParams from_typeParams => ?_
  refine .take (takes_expect _) fun _ _ => .read reads.within fun params from_params => ?_
  refine .take (takes_expect _) fun _ _ => .optionalAt (sound.resultType _) fun result from_result => ?_
  refine .read (sound.functionBody _ _ _) fun body from_body => .look fun _ => ?_
  exact .taken ⟨from_params, from_body, from_append.mpr ⟨from_typeParams, from_result⟩⟩

/-- The parameters of a getter are read. -/
theorem Sound.getterParameters (sound : g.Sound) : Reads (getterParameters g) :=
  fun _ => .read sound.formalParameters fun _ taken => .look fun _ => .give taken

/-- The parameters of a setter are read. -/
theorem Sound.setterParameters (sound : g.Sound) : Reads (setterParameters g) :=
  fun _ => .read sound.formalParameters fun _ taken => .look fun _ => .look fun _ => .give taken

/-- The name of a function is read where there is one. -/
theorem reads_optionalName (required : Bool) : Reads (optionalName required) := by
  have named : Reads (do return some (← boundIdentifier)) :=
    fun _ => .take spans_boundIdentifier.takes fun _ taken => .give (from_some.mpr taken)
  exact fun _ => .ite named.last (.look fun _ => .look fun _ => .ite named.last (.give from_none))

/-- The decorators of a function stand before it and do not belong to what it covers. -/
theorem Sound.functionAfterAsync (sound : g.Sound) (isAsync : Bool) (form : Form)
    (requiresName requiresBody : Bool) {decorating : List Tree} (walk : Walk o p)
    (from_decorating : From o decorating) :
    Runs p b (functionAfterAsync g p.current.start isAsync form requiresName requiresBody decorating)
      (SpannedBehind o p) := by
  refine .take (takes_expectWord _) fun _ _ => .read (eats_eat _).reads fun isGenerator _ => ?_
  refine .read (reads_optionalName _).within fun name from_name => ?_
  refine .take (sound.functionRest sound.formalParameters _ _) fun rest from_rest => .check ?_
  have from_name := Sited.earlier walk from_name
  have from_rest := Sited.earlier walk from_rest
  exact .buildBehind walk (by simp [from_name, from_parts from_rest from_decorating])

/-- A function covers what was taken since its keyword; its decorators come from before it. -/
theorem Sound.functionFrom (sound : g.Sound) (form : Form) (requiresName requiresBody : Bool)
    {decorating : List Tree} (walk : Walk o p) (from_decorating : From o decorating) :
    Runs p .here (functionFrom g form requiresName requiresBody decorating) (SpannedBehind o p) :=
  .start (.read (eats_eatWord _).reads fun _ _ =>
    sound.functionAfterAsync _ form requiresName requiresBody walk from_decorating)

instance : Looks isAtAsyncFunction := by unfold isAtAsyncFunction; infer_instance

/-! ## Literals -/

/-- An array literal covers its brackets. -/
theorem Sound.arrayLiteral (sound : g.Sound) : Spans (arrayLiteral g) := by
  refine fun p => .start (.take (takes_expect _) fun _ _ => ?_)
  refine .read (reads_many fun q => ?_) fun elements from_elements => ?_
  · refine .look fun _ => .ite (.give from_none) (.start (.eat (eats_eat _) ?_ ?_))
    · exact .give (from_some.mpr ⟨.hole (.refl q), trivial⟩)
    refine .take sound.spreadable.takes fun element taken => .look fun _ => .ite ?_ ?_
    · exact .give (from_some.mpr ⟨taken, trivial⟩)
    · exact .take (takes_expect _) fun _ _ => .give (from_some.mpr ⟨taken, trivial⟩)
  · exact .take (takes_expect _) fun _ _ => .build (from_map from_elements fun _ both => both.1)

private theorem Sound.objectMethod (sound : g.Sound) {key : Tree} (from_key : From p key)
    {parameters : Parser (List Tree)} (reads : Reads parameters) (isAsync isGenerator : Bool) :
    Runs p b (objectMethod g p.current.start key parameters isAsync isGenerator) (Taken p) := by
  refine .take (sound.functionRest reads _ _) fun rest from_rest => ?_
  exact .node (from_cons.mpr ⟨from_key, from_parts from_rest from_nil⟩)

private theorem Sound.introducedMethod (sound : g.Sound) (word : String) :
    Runs p b (introducedMethod g p.current.start word) (Taken p) := by
  unfold Grammar.introducedMethod
  split
  · exact .take sound.propertyName.takes fun key from_key =>
      sound.objectMethod from_key sound.getterParameters _ _
  · exact .take sound.propertyName.takes fun key from_key =>
      sound.objectMethod from_key sound.setterParameters _ _
  · exact .read (eats_eat _).reads fun _ _ => .take sound.propertyName.takes fun key from_key =>
      sound.objectMethod from_key sound.formalParameters _ _
  · exact .refuse

private theorem Sound.objectProperty (sound : g.Sound) : Takes (objectProperty g) := by
  refine fun p => .start (.eat (eats_eat _) ?_ (.eat (eats_eat _) ?_ ?_))
  · exact .take sound.assignmentWithIn.takes fun operand taken => .node (by simpa using taken)
  · refine .take sound.propertyName.takes fun key from_key => ?_
    exact sound.objectMethod from_key sound.formalParameters _ _
  refine .read reads_parameterModifier fun _ _ => .take sound.propertyName.takes fun key from_key => ?_
  refine .eat (eats_eat _) ?_ (.look fun _ => .look fun _ => .ite ?_ ?_)
  · refine .take sound.assignmentWithIn.takes fun value from_value => ?_
    exact .node (by simp [from_key, from_value])
  · exact sound.objectMethod from_key sound.formalParameters _ _
  split
  · exact .refuse
  rename_i name _
  extract_lets marked
  have marked_takes : Runs p .past (marked ()) (Taken p) := by
    refine .look fun _ => .look fun _ => .look fun _ => .ite ?_ ?_
    · refine .look fun _ => .eat (eats_eat _) ?_ (.node from_nil)
      exact .take sound.assignmentWithIn.takes fun default taken => .node (by simpa using taken)
    · exact .look fun _ => sound.introducedMethod name
  exact .eat (eats_eat _) (.look fun _ => marked_takes) marked_takes

/-- An object literal covers its braces. -/
theorem Sound.objectLiteral (sound : g.Sound) : Spans (objectLiteral g) := by
  refine fun p => .start (.within (.take (takes_expect _) fun _ _ => ?_))
  refine .read (reads_many fun q => ?_) fun properties from_properties => ?_
  · refine .look fun _ => .ite (.give from_none) (.take sound.objectProperty fun property taken => ?_)
    refine .look fun _ => .ite (.give (from_some.mpr ⟨taken, trivial⟩)) ?_
    exact .take (takes_expect _) fun _ _ => .give (from_some.mpr ⟨taken, trivial⟩)
  · exact .take (takes_expect _) fun _ _ => .build (from_map from_properties fun _ both => both.1)

/-- The substitutions of a template are taken from its opening backtick to its closing one. -/
theorem Sound.substitutions (sound : g.Sound) (isTagged : Bool) : Takes (substitutions g isTagged) := by
  refine Takes.within (takes_many fun p => .get fun s same => .check ?_)
  subst same
  split
  · exact .refuse
  · rename_i chunk read
    refine .check (.advanceTo (.chunk read) (.ite (.taken from_none) ?_))
    exact .take sound.expressionWithIn.takes fun part taken => .taken (from_some.mpr taken)

/-- A template literal covers its backticks. -/
theorem Sound.templateLiteral (sound : g.Sound) : Spans (templateLiteral g) :=
  fun _ => .start (.take (sound.substitutions _) fun _ taken => .build taken)

/-- At a slash, a regular expression literal covers its slashes and flags. -/
theorem patternLiteral_runs (slash : ∃ body, p.current.here = '/' :: body) :
    Runs p .here patternLiteral (Spanned p) := by
  obtain ⟨body, here⟩ := slash
  refine .get fun s same => ?_
  subst same
  dsimp only
  split
  · exact .refuse
  · rename_i read
    refine .look fun _ => .advanceTo (.regularExpression here read) ?_
    exact .build from_nil

end Harvest.TypeScript.Grammar
