import Harvest.Proofs.TypeScript.Grammar.Statement
import Harvest.TypeScript.Grammar.Item

/-!
# Imports and exports take what they cover
-/

namespace Harvest.TypeScript.Grammar

open Harvest.TypeScript.Parser Place

variable {g : Grammar} {o p : Place} {b : Progress}

/-! ## Clauses -/

instance : Sited SpecifierName := .nowhere SpecifierName
instance : Sited Specifier := .nowhere Specifier
instance : Sited ImportHead := .nowhere ImportHead

private theorem from_numbers (numbers : List Nat) : From p numbers := fun _ _ => trivial

private theorem from_names (names : List (String × String)) : From p names := fun _ _ => ⟨trivial, trivial⟩

private theorem Sound.attributes (sound : g.Sound) : Reads (attributes g) := by
  refine fun p => .look fun _ => .look fun _ => .look fun _ => .ite ?_ (.give from_nil)
  refine .take takes_advance fun _ _ => .take sound.objectLiteral.takes fun object taken => ?_
  exact .give (by simpa using taken)

private theorem takes_modulePath : Takes modulePath := by
  refine fun p => .take spans_stringLiteral.takes fun path _ => ?_
  split
  · exact .taken (from_numbers _)
  · exact .refuse

private theorem Sound.fromClause (sound : g.Sound) : Takes (fromClause g) := by
  refine fun p => .take (takes_expectWord _) fun _ _ => .take takes_modulePath fun path _ => ?_
  refine .read sound.attributes fun attrs from_attrs => .read reads_expectSemicolon fun _ _ => ?_
  exact .taken ⟨from_numbers path, from_attrs⟩

private theorem takes_specifierName : Takes specifierName := by
  refine fun p => .look fun _ => .ite (.take takes_modulePath fun _ _ => .taken trivial) ?_
  refine .take spans_identifierName.takes fun tree _ => ?_
  split
  · exact .taken trivial
  · exact .refuse

private theorem takes_boundName : Takes boundName := by
  refine fun p => .take spans_boundIdentifier.takes fun tree _ => ?_
  split
  · exact .taken trivial
  · exact .refuse

private theorem takes_specifier {outerName : Parser SpecifierName} (takes : Takes outerName) :
    Takes (specifier outerName) := by
  refine fun p => .take takes_specifierName fun name _ => .look fun _ => ?_
  have done {entry : Specifier} : Runs p .past (pure entry) (Taken p) := .taken trivial
  have renamed {entry : Option SpecifierName → Specifier} : Runs p .past (do
      let outer ← if ← eatWord "as" then pure (some (← outerName)) else pure none
      return entry outer) (Taken p) :=
    .eat (eats_eatWord _) (.take takes fun _ _ => .got done) (.got done)
  refine .ite (.take spans_identifierName.takes fun second _ => .ite renamed ?_) renamed
  refine .look fun _ => .ite done (.take takes fun third _ => ?_)
  split
  · exact .look fun _ => .ite (.take takes fun _ _ => done) done
  · exact done

private theorem takes_specifiers {outerName : Parser SpecifierName} (takes : Takes outerName) :
    Takes (specifiers outerName) := by
  refine fun p => .take (takes_expect _) fun _ _ => .read (reads_many fun q => ?_) fun entries _ => ?_
  · refine .look fun _ => .ite (.give from_none) (.take (takes_specifier takes) fun entry _ => ?_)
    exact .look fun _ => .maybe (takes_expect _).reads (.give (from_some.mpr trivial))
  · exact .take (takes_expect _) fun _ _ => .taken fun _ _ => trivial

/-! ## Imports -/

private theorem looks_mapM {α β : Type} {f : α → Parser β} (looks : ∀ a, Looks (f a)) (list : List α) :
    Looks (list.mapM f) := by
  induction list with
  | nil =>
    rw [List.mapM_nil]
    infer_instance
  | cons a list ih =>
    rw [List.mapM_cons]
    infer_instance

private theorem takes_namedImports (isTypeImport : Bool) : Takes (namedImports isTypeImport) := by
  have takes_name : Takes (SpecifierName.word <$> boundName) := by
    rw [map_eq_pure_bind]
    exact fun _ => .take takes_boundName fun _ _ => .taken trivial
  refine fun p => .take (takes_specifiers takes_name) fun entries _ => .look fun _ => Reads.lastPast ?_
  refine @Looks.reads _ _ _ (looks_mapM (fun entry => ?_) entries) fun _ names => from_names names
  split <;> infer_instance

private theorem importEquals_runs : Runs p b (importEquals p.current.start) (Taken p) := by
  refine .take (takes_expect _) fun _ _ => .look fun _ => .look fun _ => ?_
  extract_lets finish
  have finish_takes : Runs p .past (finish ()) (Taken p) :=
    .read reads_expectSemicolon fun _ _ => .node from_nil
  refine .ite (.take takes_advance fun _ _ => .take takes_advance fun _ _ => ?_) ?_
  · exact .take takes_modulePath fun _ _ => .take (takes_expect _) fun _ _ => finish_takes
  · exact .take takes_entityName fun _ _ => finish_takes

private theorem reads_importHead : Reads importHead := by
  have done {p : Place} {b : Progress} {head : ImportHead} : Runs p b (pure head) (Read p) := .give trivial
  refine fun p => .look fun _ => .ite done (.take takes_boundName fun first _ => ?_)
  refine .look fun _ => .look fun _ => .ite done (.look fun _ => ?_)
  extract_lets finish
  have finish_reads (marked : Bool) : Runs p .past (finish marked) (Read p) := by
    refine .look fun _ => .ite done (.look fun _ => .ite done ?_)
    refine .look fun _ => .look fun _ => .look fun _ => ?_
    extract_lets isSource answer close
    have close_reads : Runs p .past (close ()) (Read p) := .look fun _ => .maybe (takes_expect _).reads done
    exact .ite (.take takes_boundName fun _ _ => close_reads) close_reads
  refine .ite (.look fun _ => .look fun _ => .look fun _ => ?_) (.got (finish_reads _))
  refine .ite ?_ (.got (finish_reads _))
  exact .take takes_boundName fun _ _ => .got (finish_reads _)

private theorem reads_importedNames (head : ImportHead) : Reads (importedNames head) := by
  have reads_star : Reads importedNames.starImport := by
    refine fun p => .eat (eats_eat _) (.take (takes_expectWord _) fun _ _ => ?_) (.give from_nil)
    exact .take takes_boundName fun _ _ => .give from_nil
  cases head with
  | source => exact fun _ => .give from_nil
  | equals => exact fun _ => .give from_nil
  | star => exact reads_star
  | bindings isType =>
    exact fun _ => .look fun _ => .ite (takes_namedImports isType).reads.last reads_star.last

private theorem Sound.importDeclaration (sound : g.Sound) : Takes (importDeclaration g) := by
  refine fun p => .start (.take (takes_expectWord _) fun _ _ => .look fun _ => .ite ?_ ?_)
  · refine .take takes_modulePath fun _ _ => .read sound.attributes fun attrs from_attrs => ?_
    exact .read reads_expectSemicolon fun _ _ => .node from_attrs
  refine .read reads_importHead fun head _ => ?_
  split
  · exact importEquals_runs
  · refine .read (reads_importedNames _) fun names _ => .take sound.fromClause fun clause from_clause => ?_
    exact .node from_clause.2

/-! ## Exports -/

private theorem Sound.exportList (sound : g.Sound) (isType : Bool) :
    Runs p b (exportList g p.current.start isType) (Taken p) := by
  refine .take (takes_specifiers takes_specifierName) fun entries _ => .look fun _ => .look fun _ => ?_
  refine .ite (.take sound.fromClause fun clause from_clause => .node from_clause.2) ?_
  exact .look fun _ => .read reads_eatSemicolon fun _ _ => .node from_nil

private theorem Sound.exportAll (sound : g.Sound) : Runs p b (exportAll g p.current.start) (Taken p) := by
  refine .take (takes_expect _) fun _ _ => ?_
  extract_lets finish
  have finish_takes : Runs p .past (finish ()) (Taken p) :=
    .take sound.fromClause fun clause from_clause => .node from_clause.2
  exact .eat (eats_eatWord _) (.take takes_specifierName fun _ _ => finish_takes) finish_takes

private theorem Sound.innerDecorators_then (sound : g.Sound) {β : Type} {Q : β → Place → Prop}
    {k : List Tree → Parser β} {outer : List Tree} (walk : Walk o p) (from_outer : From o outer)
    (next : ∀ decorating, From o decorating → Runs p b.onward (k decorating) Q) :
    Runs p b (innerDecorators g outer >>= k) Q := by
  refine .bind (R := fun decorating q => b.onward.Since p q ∧ From o decorating) ?_ ?_
  · refine .read sound.decorators fun inner from_inner => .check (.pure fun q since => ⟨since, ?_⟩)
    exact from_append.mpr ⟨from_outer, Sited.earlier walk from_inner⟩
  · exact fun decorating q read => .back read.1 (next decorating read.2)

private theorem Sound.exportDefault (sound : g.Sound) {outer : List Tree} (walk : Walk o p)
    (from_outer : From o outer) :
    Runs p b (exportDefault g p.current.start outer) (TakenBehind o p) := by
  refine sound.innerDecorators_then walk from_outer fun decorating from_decorating => ?_
  refine .mark fun q since => .start (.look fun _ => .look fun _ => ?_)
  extract_lets isAbstractClass finish
  have onward := since.walk
  have behind := walk.trans onward
  have finish_takes {exported : Tree} (from_exported : From o exported) :
      Runs p .past (finish exported) (TakenBehind o p) :=
    .nodeBehind walk (by simpa using from_exported)
  have exported {f : Parser Tree} {c : Progress} (takes : Runs q c f (TakenBehind o q)) :
      Runs q c (f >>= finish) (TakenBehind o p) :=
    .bind takes fun _ _ taken => .unmarkPast (onward.past taken.1) (finish_takes taken.2)
  refine .look fun _ => .look fun _ => .look fun _ => .look fun _ => ?_
  refine .ite (.take takes_advance fun _ _ => ?_) (.ite (.take takes_advance fun _ _ => ?_) ?_)
  · exact exported (.unspanned (sound.classFrom behind from_decorating _ _))
  · exact exported (.behindWalk behind sound.interfaceFrom)
  refine .ite ?_ (.ite ?_ ?_)
  · exact exported (.unspanned (sound.classFrom behind from_decorating _ _))
  · exact exported (.unspanned (sound.functionFrom _ _ _ behind from_decorating))
  · refine .take sound.assignmentWithIn.takes fun value taken => .read reads_expectSemicolon fun _ _ => ?_
    exact .got (.unmark onward (finish_takes (Sited.earlier behind taken)))

private theorem Sound.exportedDeclaration (sound : g.Sound) {outer : List Tree} (walk : Walk o p)
    (from_outer : From o outer) :
    Runs p b (exportedDeclaration g p.current.start outer) (TakenBehind o p) := by
  refine sound.innerDecorators_then walk from_outer fun decorating from_decorating => ?_
  refine .mark fun q since => .start ?_
  have onward := since.walk
  have behind := walk.trans onward
  have declared {f : Parser Tree} (takes : Runs q .here f (TakenBehind o q)) :
      Runs q .here f (TakenBehind o p) := takes.mono fun _ _ => TakenBehind.earlier onward
  refine .look fun _ => .ite (declared (.unspanned ?_)) (.look fun _ => .look fun _ => ?_)
  · exact sound.classFrom behind from_decorating _ _
  refine .ite (declared (.unspanned (sound.functionFrom _ _ _ behind from_decorating))) (.look fun _ => ?_)
  refine .ite (declared (.behindWalk behind sound.constEnum.last)) (.look fun _ => ?_)
  refine .ite (declared (.behindWalk behind sound.variableStatement.last)) ?_
  exact .unmark onward (.behindWalk walk (sound.exportList _))

private theorem Sound.exportedWord? (sound : g.Sound) {decorating : List Tree} (walk : Walk o p)
    (from_decorating : From o decorating) :
    Runs p .here (exportedWord? g decorating) (Sought (TakenBehind o p) p) := by
  refine .start (.look fun found => ?_)
  split
  · rename_i word
    have declared := sound.introducedDeclaration (b := .here) word true walk (.refl p) from_decorating
    exact .attempted (declared.mono fun _ _ => And.right)
  · exact .unsought

private theorem Sound.exportDeclaration (sound : g.Sound) {decorating : List Tree} (walk : Walk o p)
    (from_decorating : From o decorating) :
    Runs p .here (exportDeclaration g decorating) (TakenBehind o p) := by
  refine .start (.take (takes_expectWord _) fun _ _ => .mark fun q past => .start ?_)
  extract_lets equals rest
  have exported {declaration : Tree} (from_declaration : From o declaration) :
      Runs p .past (build p.current.start .statement [declaration]) (TakenBehind o p) :=
    .nodeBehind walk (by simpa using from_declaration)
  -- `declare` may have been taken without a declaration behind it, so the rest starts at any place `m`
  have rest_takes {m : Place} (past : Past p m) : Runs m .here (rest ()) (TakenBehind o p) := by
    refine .seek (sound.exportedWord? (walk.trans past.walk) from_decorating) ?_ (.unmarkPast past ?_)
    · exact fun _ _ taken => .unmarkPast (past.walk.past taken.1) (exported taken.2)
    refine .eat (eats_eatWord _) (.look fun _ => .look fun _ => .maybe takes_advance.reads ?_) ?_
    · exact .take spans_identifierName.takes fun _ _ => .behindWalk walk importEquals_runs
    refine .eat (eats_eat _) (.take sound.expressionWithIn.takes fun value taken => ?_) ?_
    · exact .read reads_expectSemicolon fun _ _ => exported (Sited.earlier walk taken)
    refine .eat (eats_eatWord _) (.take (takes_expectWord _) fun _ _ => ?_) ?_
    · refine .take spans_identifier.takes fun _ _ => .read reads_expectSemicolon fun _ _ => ?_
      exact .nodeBehind walk from_nil
    refine .read (eats_eatWord _).reads fun isType _ => .look fun _ => ?_
    refine .ite (.behindWalk walk sound.exportAll) (.ite (.behindWalk walk (sound.exportList _)) ?_)
    refine .eat (eats_eatWord _) (sound.exportDefault walk from_decorating) ?_
    refine .bind (sound.exportedDeclaration walk from_decorating) fun declaration r taken => ?_
    exact .unmarkPast taken.1 (exported taken.2)
  have past : Past p q := past
  refine .eat (eats_eatWord _) (.mark fun m onward => ?_) (rest_takes past)
  have onward : Past q m := onward
  refine .seek (sound.declaredAfter (walk.trans past.walk) onward.walk from_decorating) ?_ ?_
  · exact fun _ _ taken => .unmarkPast (past.walk.past taken.1) (exported taken.2)
  · exact .mark fun r further => rest_takes (past.onward (onward.walk.trans further))

/-- An import, an export or a statement of a module is taken. -/
theorem Sound.parse_moduleItem (sound : g.Sound) : Takes (Grammar.moduleItem g) := by
  refine fun p => .read sound.decorators fun decorating from_decorating => .look fun _ => ?_
  refine .ite sound.importStatement.last (.look fun _ => ?_)
  refine .ite sound.importDeclaration.last (.look fun _ => ?_)
  have behind {f : Parser Tree} {q : Place} (walk : Walk p q) (takes : Runs q .here f (TakenBehind p q)) :
      Runs q .here f (Taken p) := takes.mono fun _ _ => TakenBehind.earlier walk
  refine .ite (.mark fun q walk => behind walk ?_) (.mark fun q walk => behind walk ?_)
  · exact sound.exportDeclaration walk from_decorating
  · exact sound.statementAfter true walk from_decorating

end Harvest.TypeScript.Grammar
