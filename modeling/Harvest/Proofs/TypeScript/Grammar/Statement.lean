import Harvest.Proofs.TypeScript.Grammar.Expression
import Harvest.Proofs.TypeScript.Grammar.Type
import Harvest.TypeScript.Grammar.Statement

/-!
# Statements and declarations take what they cover

Decorators are read before it is known what they decorate. What follows them is read at a place `p`
behind the place `o` where they start, and answers with trees that were taken behind `o`.
-/

namespace Harvest.TypeScript.Grammar

open Harvest.TypeScript.Parser Place

variable {g : Grammar} {o p q : Place} {b : Progress}

private theorem Sound.parenthesizedTest (sound : g.Sound) : Takes (parenthesizedTest g) :=
  fun _ => .take (takes_expect _) fun _ _ => .take sound.expressionWithIn.takes fun _ taken =>
    .take (takes_expect _) fun _ _ => .taken taken

/-- A statement that opens with `import` and is an expression is taken. -/
theorem Sound.importStatement (sound : g.Sound) : Takes (importStatement g) :=
  fun _ => .start (.take sound.expression.takes fun _ taken => .read reads_eatSemicolon fun _ _ =>
    .node (by simpa using taken))

/-! ## Variables -/

instance : Sited Declarator :=
  ⟨fun p declared => From p declared.tree, fun walk taken => Sited.earlier walk taken⟩

instance : Looks isAtLoopDivider := by unfold isAtLoopDivider; infer_instance

private theorem withoutStrayDefaults_then {β : Type} {tree : Tree} {k : Tree → Parser β} {Q : β → Place → Prop}
    (next : Runs p b (k tree) Q) : Runs p b (withoutStrayDefaults tree >>= k) Q := by
  simp only [withoutStrayDefaults, bind_assoc, pure_bind]
  exact .look fun _ => next

private theorem Sound.declarator (sound : g.Sound) (isConstant inHead : Bool) :
    Takes (declarator g isConstant inHead) := by
  refine fun p => .start (.look fun _ => .check (.span sound.binding fun pattern from_pattern start => ?_))
  extract_lets finish
  have finish_takes : Runs p .past (finish ()) (Taken p) := by
    refine .read sound.typing? fun typing from_typing => annotate_then from_pattern start from_typing ?_
    intro pattern from_pattern
    have alone (hasValue : Bool) : Runs p .past (do
        return (⟨← build p.current.start .declarator [pattern], hasValue, !typing.isEmpty⟩ : Declarator))
        (Taken p) :=
      .built (by simpa using from_pattern) fun _ taken _ => .past (.taken taken)
    refine .look fun _ => .ite (alone _) (.eat (eats_eat _) ?_ (.look fun _ => .ite ?_ (alone _)))
    · refine .take sound.assignment.takes fun value from_value => withoutStrayDefaults_then ?_
      exact .built (by simp [from_pattern, from_value]) fun _ taken _ => .past (.taken taken)
    · exact .ite (.look fun _ => alone _) (.check (alone _))
  exact .past (.ite (.read (eats_eat _).reads fun _ _ => finish_takes) finish_takes)

private theorem Sound.declarators (sound : g.Sound) (isConstant inHead : Bool) :
    Takes (declarators g isConstant inHead) := by
  refine fun p => .take (sound.declarator _ _) fun first from_first => ?_
  refine .read (reads_many fun q => .eat (eats_eat _) ?_ (.give from_none)) fun others from_others => ?_
  · refine .look fun _ => .look fun _ => .look fun _ => .take (sound.declarator _ _) fun _ taken => ?_
    exact .give (from_some.mpr taken)
  · exact .taken (from_cons.mpr ⟨from_first, from_others⟩)

instance : Looks isAtLetDeclaration := by unfold isAtLetDeclaration; infer_instance
instance : Looks isAtVariables := by unfold isAtVariables; infer_instance

/-- A variable statement is taken with its declarations. -/
theorem Sound.variableStatement (sound : g.Sound) : Takes (variableStatement g) := by
  refine fun p => .start (.look fun _ => .take takes_advance fun _ _ => ?_)
  refine .take (sound.declarators _ _).within fun declared from_declared => ?_
  refine .read reads_eatSemicolon fun _ _ => .look fun _ => .node (from_map from_declared fun _ => id)

instance : Looks isAtUsing := by unfold isAtUsing; infer_instance

private theorem Sound.usingStatement (sound : g.Sound) : Takes (usingStatement g) := by
  refine fun p => .start (.read (eats_eatWord _).reads fun _ _ => .take (takes_expectWord _) fun _ _ => ?_)
  refine .take (sound.declarators _ _).within fun declared from_declared => .look fun _ => ?_
  exact .read reads_expectSemicolon fun _ _ => .node (from_map from_declared fun _ => id)

instance : Looks isAtAwaitUsing := by unfold isAtAwaitUsing; infer_instance

/-! ## Loops -/

private theorem Sound.loopBody (sound : g.Sound) : Takes (loopBody g) := (sound.statement false).within

private theorem Sound.doStatement (sound : g.Sound) : Takes (doStatement g) := by
  refine fun p => .start (.take (takes_expectWord _) fun _ _ => .take sound.loopBody fun body from_body => ?_)
  refine .take (takes_expectWord _) fun _ _ => .take sound.parenthesizedTest fun test from_test => ?_
  exact .read reads_eatSemicolon fun _ _ => .node (by simp [from_test, from_body])

private theorem Sound.whileStatement (sound : g.Sound) : Takes (whileStatement g) := by
  refine fun p => .start (.take (takes_expectWord _) fun _ _ => ?_)
  refine .take sound.parenthesizedTest fun test from_test => .take sound.loopBody fun body from_body => ?_
  exact .node (by simp [from_test, from_body])

instance : Sited LoopHead := ⟨fun p head => From p head.parts, fun walk taken => Sited.earlier walk taken⟩

private theorem Sound.countingHead (sound : g.Sound) {init : List Tree} (from_init : From p init) :
    Runs p b (countingHead g init) (Taken p) := by
  refine .optionalUnless sound.expressionWithIn.takes fun test from_test => ?_
  refine .take (takes_expect _) fun _ _ => ?_
  refine .optionalUnless sound.expressionWithIn.takes fun update from_update => .taken ?_
  exact from_append.mpr ⟨from_append.mpr ⟨from_init, from_test⟩, from_update⟩

private theorem Sound.memberHead (sound : g.Sound) {target : List Tree} (from_target : From p target) :
    Runs p b (memberHead g target) (Taken p) := by
  have running {value : Tree} {isOf : Bool} (from_value : From p value) :
      Runs p .past (pure (⟨target ++ [value], isOf⟩ : LoopHead)) (Taken p) :=
    .taken (from_append.mpr ⟨from_target, by simpa using from_value⟩)
  refine .eat (eats_eatWord _) ?_ (.take (takes_expectWord _) fun _ _ => ?_)
  · exact .take sound.assignmentWithIn.takes fun _ taken => running taken
  · exact .take sound.expressionWithIn.takes fun _ taken => running taken

private theorem Sound.declaringHead (sound : g.Sound) : Takes (declaringHead g) := by
  refine fun p => .look fun _ => .look fun _ => .take takes_advance fun _ _ => ?_
  refine .take (sound.declarators _ _).within fun declared from_declared => .look fun _ => ?_
  have from_trees : From p (declared.map (·.tree)) := from_map from_declared fun _ => id
  exact .ite (.look fun _ => sound.memberHead from_trees)
    (.take (takes_expect _) fun _ _ => sound.countingHead from_trees)

instance (init : Tree) : Looks (isAtLoopResource init) := by unfold isAtLoopResource; infer_instance

private theorem Sound.expressionHead (sound : g.Sound) : Takes (expressionHead g) := by
  refine fun p => .take sound.expression.within.takes fun init from_init => .look fun _ => .ite ?_ ?_
  · refine .take spans_boundIdentifier.takes fun name from_name => .look fun _ => .look fun _ => ?_
    exact sound.memberHead (by simpa using from_name)
  have from_init : From p [init] := by simpa using from_init
  refine .look fun _ => .ite (.look fun _ => .look fun _ => .look fun _ => sound.memberHead from_init) ?_
  exact .take (takes_expect _) fun _ _ => withoutStrayDefaults_then (sound.countingHead from_init)

private theorem Sound.loopHead (sound : g.Sound) : Takes (loopHead g) :=
  fun _ => .look fun _ => .ite sound.declaringHead.last
    (.eat (eats_eat _) (sound.countingHead from_nil) sound.expressionHead.last)

private theorem Sound.forStatement (sound : g.Sound) : Takes (forStatement g) := by
  refine fun p => .start (.take (takes_expectWord _) fun _ _ => ?_)
  refine .read (eats_eatWord _).reads fun waits _ => ?_
  refine .take (takes_expect _) fun _ _ => .take sound.loopHead.within fun head from_head => ?_
  refine .take (takes_expect _) fun _ _ => .take sound.loopBody fun body from_body => .check (.node ?_)
  exact from_append.mpr ⟨from_head, by simpa using from_body⟩

/-! ## Jumps -/

private theorem takes_jumpStatement : Takes jumpStatement := by
  refine fun p => .start (.look fun _ => .take takes_advance fun _ _ => ?_)
  refine .read reads_eatSemicolon fun _ _ => ?_
  extract_lets finish
  have finish_takes (label : Option String) : Runs p .past (finish label) (Taken p) :=
    .look fun _ => .look fun _ => .look fun _ => .node from_nil
  refine .ite (.got (finish_takes none)) (.take spans_identifier.takes fun label _ => ?_)
  exact .read reads_expectSemicolon fun _ _ => .got (finish_takes _)

private theorem Sound.returnStatement (sound : g.Sound) : Takes (returnStatement g) := by
  refine fun p => .start (.take (takes_expectWord _) fun _ _ => ?_)
  refine .optionalUnless sound.expressionWithIn.takes fun value from_value => ?_
  exact .read reads_expectSemicolon fun _ _ => .look fun _ => .look fun _ => .node from_value

private theorem Sound.throwStatement (sound : g.Sound) : Takes (throwStatement g) := by
  refine fun p => .start (.take (takes_expectWord _) fun _ _ => .look fun _ => .check ?_)
  refine .take sound.expressionWithIn.takes fun value taken => .read reads_expectSemicolon fun _ _ => ?_
  exact .node (by simpa using taken)

/-! ## Branches -/

private theorem Sound.ifStatement (sound : g.Sound) : Takes (ifStatement g) := by
  refine fun p => .start (.take (takes_expectWord _) fun _ _ => ?_)
  refine .take sound.parenthesizedTest fun test from_test => ?_
  refine .take (sound.statement false) fun first from_first => ?_
  refine .optional (eats_eatWord _) (sound.statement false) fun second from_second => ?_
  exact .node (by simp [from_test, from_first, from_second])

private theorem Sound.switchCase (sound : g.Sound) : Takes (switchCase g) := by
  refine fun p => .read (eats_eatWord _).reads fun isDefault _ => ?_
  extract_lets finish
  have finish_takes {test : List Tree} (from_test : From p test) {c : Progress} :
      Runs p c (finish test) (Taken p) := by
    refine .take (takes_expect _) fun _ _ => .read (reads_many fun q => ?_) fun body from_body => ?_
    · refine .look fun _ => .look fun _ => .look fun _ => .ite (.give from_none) ?_
      exact .take (sound.statement true) fun _ taken => .give (from_some.mpr taken)
    · exact .taken ⟨trivial, from_append.mpr ⟨from_test, from_body⟩⟩
  refine .ite (.got (finish_takes from_nil)) (.take (takes_expectWord _) fun _ _ => ?_)
  exact .take sound.expressionWithIn.takes fun test taken => .got (finish_takes (by simpa using taken))

private theorem Sound.switchStatement (sound : g.Sound) : Takes (switchStatement g) := by
  refine fun p => .start (.take (takes_expectWord _) fun _ _ => ?_)
  refine .take sound.parenthesizedTest fun subject from_subject => .take (takes_expect _) fun _ _ => ?_
  refine .read (reads_manyUntil _ sound.switchCase).within fun cases from_cases => ?_
  refine .take (takes_expect _) fun _ _ => .check (.node (from_cons.mpr ⟨from_subject, ?_⟩))
  intro tree member
  obtain ⟨entry, inside, member⟩ := List.mem_flatMap.mp member
  exact (from_cases entry inside).2 tree member

private theorem Sound.catchParameter (sound : g.Sound) : Reads (catchParameter g) := by
  refine fun p => .eats (eats_eat _) ?_ (.give from_nil)
  refine .take sound.binding.takes fun pattern from_pattern => ?_
  refine .read sound.typing? fun typing from_typing => ?_
  exact .take (takes_expect _) fun _ _ => .give (from_cons.mpr ⟨from_pattern, from_typing⟩)

private theorem Sound.tryStatement (sound : g.Sound) : Takes (tryStatement g) := by
  refine fun p => .start (.take (takes_expectWord _) fun _ _ => ?_)
  refine .take sound.block.takes fun body from_body => ?_
  extract_lets finish
  have finish_takes {handler : List Tree} (from_handler : From p handler) :
      Runs p .past (finish handler) (Taken p) := by
    refine .optional (eats_eatWord _) sound.block.takes fun finalizer from_finalizer => .look fun _ => ?_
    exact .node (by simp [from_body, from_handler, from_finalizer])
  refine .eat (eats_eatWord _) ?_ (.got (finish_takes from_nil))
  refine .read sound.catchParameter fun parameter from_parameter => ?_
  refine .take sound.block.takes fun block taken => ?_
  exact .got (finish_takes (from_append.mpr ⟨from_parameter, by simpa using taken⟩))

/-! ## Declarations of types -/

private theorem takes_declaredTypeName : Takes declaredTypeName :=
  fun _ => .take spans_identifierName.takes fun _ _ => (Looks.reads fun _ _ => trivial).lastPast

/-- An interface is taken after its word. -/
theorem Sound.interfaceFrom (sound : g.Sound) : Runs p b (interfaceFrom g p.current.start) (Taken p) := by
  refine .take takes_declaredTypeName fun _ _ => ?_
  refine .read (sound.typeParameters? _ _) fun typeParams from_typeParams => ?_
  refine .eatOr (eats_eatWord _) sound.heritage from_nil fun bases from_bases => ?_
  refine .take sound.typeMembers fun members from_members => .node ?_
  exact from_append.mpr ⟨from_append.mpr ⟨from_typeParams, from_bases⟩, from_members⟩

private theorem Sound.typeAliasFrom (sound : g.Sound) : Runs p b (typeAliasFrom g p.current.start) (Taken p) := by
  refine .take spans_identifierName.takes fun _ _ => ?_
  refine .read (sound.typeParameters? _ _) fun typeParams from_typeParams => ?_
  refine .take (takes_expect _) fun _ _ => .take sound.typeHere fun definition taken => ?_
  refine .read reads_expectSemicolon fun _ _ => .node ?_
  exact from_append.mpr ⟨from_typeParams, by simpa using taken⟩

private theorem Sound.enumMember (sound : g.Sound) : Takes (enumMember g) := by
  refine fun p => .start (.look fun token => ?_)
  extract_lets built finish
  have finish_takes : Runs p .past (finish ()) (Taken p) :=
    .optional (eats_eat _) sound.assignment.takes fun value from_value => .node from_value
  split
  · exact .take spans_stringLiteral.takes fun _ _ => finish_takes
  · exact .look fun _ => .take takes_advance fun _ _ => finish_takes
  · refine .look fun _ => .take takes_advance fun _ _ => .take sound.expression.takes fun _ _ => ?_
    exact .take (takes_expect _) fun _ _ => finish_takes
  · exact .take spans_identifierName.takes fun _ _ => finish_takes

private theorem Sound.enumFrom (sound : g.Sound) : Runs p b (enumFrom g p.current.start) (Taken p) :=
  .take spans_identifierName.takes fun _ _ => .take (takes_expect _) fun _ _ =>
    .take (takes_commaSeparated _ sound.enumMember) fun _ taken => .node taken

/-! ## Namespaces -/

private theorem Sound.namespaceItems (sound : g.Sound) : Takes (namespaceItems g) := by
  refine fun p => .take (takes_expect _) fun _ _ => ?_
  refine .read (reads_manyUntil _ sound.moduleItem) fun items from_items => ?_
  exact .take (takes_expect _) fun _ _ => .taken from_items

private theorem Sound.namespaceFrom (sound : g.Sound) : Runs p b (namespaceFrom g p.current.start) (Taken p) :=
  .take takes_entityName fun _ _ => .take sound.namespaceItems fun _ taken => .node taken

private theorem Sound.ambientModule (sound : g.Sound) : Runs p b (ambientModule g p.current.start) (Taken p) := by
  have body : Runs p .past (do
      let items ← if ← isAt .braceLeft then Grammar.namespaceItems g else do
        expectSemicolon
        pure []
      build p.current.start .statement items) (Taken p) := by
    refine .look fun _ => .ite (.take sound.namespaceItems fun _ taken => .node taken) ?_
    exact .read reads_expectSemicolon fun _ _ => .got (.node from_nil)
  exact .eats (eats_eatWord _) body (.take spans_stringLiteral.takes fun _ _ => body)

/-! ## Declarations that words introduce -/

/-- The declaration starts at `p`, and its word may have been taken before `q`. -/
theorem Sound.introducedDeclaration (sound : g.Sound) (word : String) (pending : Bool)
    {decorating : List Tree} (walk : Walk o p) (onward : Walk p q) (from_decorating : From o decorating) :
    Runs q b (introducedDeclaration g p.current.start word pending decorating)
      (Sought (TakenBehind o p) q) := by
  refine .look fun _ => ?_
  extract_lets sameLine take
  have reads_take : Reads take := fun _ => .ite takes_advance.reads.last (.give trivial)
  have declared {f : Parser Tree} (takes : Runs p .on f (Taken p)) {c : Progress} :
      Runs q c (do return some (← f)) (Sought (TakenBehind o p) q) :=
    .sought (.anywhere (.unmark onward (.behindWalk walk takes)))
  split
  · refine .look fun _ => .ite (.read reads_take fun _ _ => .sought (.anywhere (.unmark onward ?_))) .unsought
    exact .unspanned (sound.classFrom walk from_decorating _ _)
  · exact .look fun _ => .ite (.read reads_take fun _ _ => declared sound.enumFrom) .unsought
  · exact .look fun _ => .ite (.read reads_take fun _ _ => declared sound.interfaceFrom) .unsought
  · refine .ite .unsought (.read reads_take fun _ _ => .look fun _ => .ite (declared sound.ambientModule) ?_)
    exact .look fun _ => .ite (declared sound.namespaceFrom) .unsought
  · exact .look fun _ => .ite (.read reads_take fun _ _ => declared sound.namespaceFrom) .unsought
  · exact .look fun _ => .ite (.read reads_take fun _ _ => declared sound.typeAliasFrom) .unsought
  · exact .unsought

instance : Looks isAtConstEnum := by unfold isAtConstEnum; infer_instance

/-- A constant enumeration is taken with both its words. -/
theorem Sound.constEnum (sound : g.Sound) : Takes (constEnum g) :=
  fun _ => .start (.take takes_advance fun _ _ => .take takes_advance fun _ _ => sound.enumFrom)

/-- What follows `declare` is taken if it is a declaration. -/
theorem Sound.declaredAfter (sound : g.Sound) {decorating : List Tree} (walk : Walk o p)
    (onward : Walk p q) (from_decorating : From o decorating) :
    Runs q .here (declaredAfter g p.current.start decorating) (Sought (TakenBehind o p) q) := by
  have declared {f : Parser Tree} (takes : Runs p .on f (Taken p)) :
      Runs q .here (do return some (← f)) (Sought (TakenBehind o p) q) :=
    .sought (.unmark onward (.behindWalk walk takes))
  refine .look fun _ => .look fun _ => .within (.look fun _ => .ite (.sought ?_) ?_)
  · have function := sound.functionFrom .function true false (walk.trans onward) from_decorating
    exact function.unspanned.mono fun _ _ => TakenBehind.earlier onward
  refine .look fun _ => .ite (.sought (.unmark onward (.unspanned ?_))) (.look fun _ => ?_)
  · exact sound.classFrom walk from_decorating _ _
  refine .ite (declared sound.constEnum.last) (.look fun _ => .look fun _ => .look fun _ => ?_)
  refine .ite (declared sound.variableStatement.last) (.look fun _ => .ite (declared sound.ambientModule) ?_)
  refine .look fun word => ?_
  split
  · exact sound.introducedDeclaration _ _ walk onward from_decorating
  · exact .unsought

private theorem Sound.declarationAfterWord (sound : g.Sound) (word : String) {decorating : List Tree}
    (walk : Walk o p) (onward : Walk p q) (from_decorating : From o decorating) :
    Runs q .here (declarationAfterWord g p.current.start word decorating) (Sought (TakenBehind o p) q) := by
  unfold Grammar.declarationAfterWord
  split
  · exact sound.declaredAfter walk onward from_decorating
  · refine .look fun _ => .ite .unsought (.unmark onward (.take sound.namespaceItems fun items taken => ?_))
    exact .sought (.behindWalk walk (.node taken))
  · exact sound.introducedDeclaration _ _ walk onward from_decorating

/-! ## Statements -/

private theorem Sound.labelledStatement (sound : g.Sound) (label : String) :
    Runs p b (labelledStatement g p.current.start label) (Taken p) := by
  refine .look fun _ => .look fun _ => .look fun _ => .look fun _ => ?_
  exact .take (sound.statement false).within fun body taken => .node (by simpa using taken)

private theorem Sound.expressionStatement (sound : g.Sound) {decorating : List Tree} (walk : Walk o p)
    (from_decorating : From o decorating) :
    Runs p .here (expressionStatement g decorating) (TakenBehind o p) := by
  refine .start (.take sound.expressionWithIn.takes fun tree from_tree => ?_)
  extract_lets finish
  have finish_takes : Runs p .past (finish ()) (TakenBehind o p) :=
    .read reads_expectSemicolon fun _ _ => .behindWalk walk (.node (by simpa using from_tree))
  split
  · refine .eat (eats_eat _) (.behindWalk walk (sound.labelledStatement _)) (.mark fun q past => ?_)
    refine .seek (sound.declarationAfterWord _ walk (Past.walk past) from_decorating) ?_ ?_
    · exact fun _ _ taken => .pure fun _ same => same ▸ taken
    · exact .unmarkPast past finish_takes
  · exact .look fun _ => finish_takes

instance (word : String) : Looks (isAtTypeWord word) := by unfold isAtTypeWord; infer_instance

/-- A statement behind its decorators is taken. -/
theorem Sound.statementAfter (sound : g.Sound) (declarations : Bool) {decorating : List Tree}
    (walk : Walk o p) (from_decorating : From o decorating) :
    Runs p .here (statementAfter g declarations decorating) (TakenBehind o p) := by
  have function := sound.functionFrom .function true false walk from_decorating
  refine .start (.look fun _ => .ite (.behindWalk walk sound.constEnum.last) (.look fun token => ?_))
  split
  · exact .behindWalk walk takes_jumpStatement.last
  · exact .behindWalk walk takes_jumpStatement.last
  · refine .take takes_advance fun _ _ => .read reads_expectSemicolon fun _ _ => ?_
    exact .behindWalk walk (.node from_nil)
  · exact .behindWalk walk sound.doStatement.last
  · exact .behindWalk walk sound.forStatement.last
  · exact .look fun _ => .unspanned function
  · exact .look fun _ => .unspanned (sound.classFrom walk from_decorating _ _)
  · exact .behindWalk walk sound.ifStatement.last
  · exact .behindWalk walk sound.returnStatement.last
  · exact .behindWalk walk sound.switchStatement.last
  · exact .behindWalk walk sound.throwStatement.last
  · exact .behindWalk walk sound.tryStatement.last
  · exact .behindWalk walk sound.whileStatement.last
  · exact .behindWalk walk sound.variableStatement.last
  · exact .behindWalk walk sound.block.takes.last
  · exact .take takes_advance fun _ _ => .behindWalk walk (.node from_nil)
  refine .look fun _ => .look fun _ => .ite (.behindWalk walk sound.variableStatement.last) ?_
  refine .look fun _ => .look fun _ => .ite (.behindWalk walk sound.usingStatement.last) ?_
  refine .look fun _ => .ite (.take takes_advance fun _ _ => .behindWalk walk sound.interfaceFrom) ?_
  refine .look fun _ => .ite (.take takes_advance fun _ _ => .behindWalk walk sound.typeAliasFrom) ?_
  refine .look fun _ => .ite (.take takes_advance fun _ _ => .behindWalk walk sound.enumFrom) ?_
  refine .look fun _ => .ite (.unspanned function) ?_
  exact sound.expressionStatement walk from_decorating

instance : Looks isAtImportExpression := by unfold isAtImportExpression; infer_instance

/-- A statement is taken, whether or not declarations are allowed. -/
theorem Sound.parse_statement (sound : g.Sound) (declarations : Bool) :
    Takes (Grammar.statement g declarations) := by
  refine fun p => .read sound.decorators fun decorating from_decorating => .look fun _ => ?_
  refine .ite sound.importStatement.last (.look fun _ => .look fun _ => .check (.mark fun q walk => ?_))
  exact (sound.statementAfter declarations walk from_decorating).mono fun _ _ => TakenBehind.earlier walk

end Harvest.TypeScript.Grammar
