import Harvest.Proofs.TypeScript.Grammar.Function
import Harvest.Proofs.TypeScript.Grammar.Type
import Harvest.TypeScript.Grammar.Class

/-!
# Classes take what they cover
-/

namespace Harvest.TypeScript.Grammar

open Harvest.TypeScript.Parser Place

variable {g : Grammar} {o p : Place} {b : Progress}

instance : Sited ClassMember where
  From p member := From p member.tree
  earlier := Sited.earlier

/-- The member starts at the next token, and its decorators were taken behind it. -/
def MemberHead.Opens (head : MemberHead) (p : Place) : Prop :=
  head.place = p.current.start ∧ From p head.decorating

instance : Looks isAtMethod := by unfold isAtMethod; infer_instance

instance (lineEnds : Bool) : Looks (isAtProperty lineEnds) := by unfold isAtProperty; infer_instance

private theorem Sound.memberKey (sound : g.Sound) : Takes (memberKey g) := by
  refine fun p => .look fun token => ?_
  split
  · exact .start (.look fun _ => .take takes_advance fun _ _ => .node from_nil)
  · exact sound.propertyName.takes p

private theorem Sound.classMethod (sound : g.Sound) {head : MemberHead} (opened : head.Opens p) {key : Tree}
    (from_key : From p key) {parameters : Parser (List Tree)} (reads : Reads parameters)
    (isAsync isGenerator : Bool) :
    Runs p b (classMethod g head key parameters isAsync isGenerator) (Taken p) := by
  refine .take (sound.functionRest reads _ _) fun rest from_rest => .look fun _ => .look fun _ => ?_
  rw [opened.1]
  refine .built (from_cons.mpr ⟨from_key, from_parts from_rest opened.2⟩) fun tree taken _ => ?_
  exact .past (.taken taken)

private theorem Sound.classProperty (sound : g.Sound) {head : MemberHead} (opened : head.Opens p) {key : Tree}
    (from_key : From p key) (isOptional : Bool) :
    Runs p .past (classProperty g head key isOptional) (Taken p) := by
  unfold Grammar.classProperty
  refine .check (.look fun _ => ?_)
  extract_lets enter marked
  have marked_takes : Runs p .past (marked ()) (Taken p) := by
    refine .read sound.typing? fun typing from_typing => ?_
    refine .read (Reads.within fun q => ?_) fun value from_value => ?_
    · refine .eat (eats_eat _) ?_ (.give from_nil)
      exact .take sound.assignment.takes fun value taken => .give (by simpa using taken)
    refine .read reads_eatSemicolon fun _ _ => .look fun _ => .look fun _ => ?_
    rw [opened.1]
    refine .built (by simp [from_key, from_value, from_typing, opened.2]) fun tree taken _ => ?_
    exact .past (.taken taken)
  exact .ite (.read (eats_eat _).reads fun _ _ => marked_takes) marked_takes

/-! ## Constructors -/

private theorem Sound.constructorParameter (sound : g.Sound) : Takes (constructorParameter g) := by
  refine fun p => .start (.read (reads_modifier _ _) fun access _ => ?_)
  refine .read (reads_modifier _ _) fun override _ => .read (reads_modifier _ _) fun isReadonly _ => ?_
  refine .take sound.plainParameter fun pattern taken => .ite (.taken taken) ?_
  split
  · exact .node (by simpa using taken)
  · exact .node (by simpa using taken)
  · exact .refuse

private theorem Sound.constructorMember (sound : g.Sound) {head : MemberHead} (opened : head.Opens p)
    {key : Tree} (from_key : From p key) : Runs p b (constructorMember g head key) (Taken p) := by
  refine .look fun _ => .look fun _ => ?_
  extract_lets enter typed
  have typed_takes (typeParams : List Tree) (from_typeParams : From p typeParams) :
      Runs p .on (typed typeParams) (Taken p) := by
    refine .take (takes_expect _) fun _ _ => ?_
    refine .read (sound.parameterList sound.constructorParameter).within fun params from_params => ?_
    refine .take (takes_expect _) fun _ _ => .look fun _ => ?_
    extract_lets isSimple result_typed
    have result_takes (result : List Tree) (from_result : From p result) :
        Runs p .past (result_typed result) (Taken p) := by
      refine .read (sound.functionBody _ _ _).within fun body from_body => ?_
      refine .look fun _ => .look fun _ => .look fun _ => ?_
      rw [opened.1]
      refine .built ?_ fun tree taken _ => .past (.taken taken)
      simp [from_key, from_params, from_body, from_typeParams, from_result]
    refine .ite (.look fun _ => .read sound.typing? fun result taken => ?_) (.got ?_)
    · exact result_takes result taken
    · exact result_takes [] from_nil
  refine .ite (.look fun _ => .take (sound.typeParameters _ _) fun typeParams taken => ?_) (.got ?_)
  · exact .anywhere (typed_takes typeParams taken)
  · exact .anywhere (typed_takes [] from_nil)

/-! ## Members -/

private theorem memberModifiers_runs {head : MemberHead} (opened : head.Opens p) :
    Runs p b (memberModifiers head) fun head q => Walk p q ∧ head.Opens p := by
  refine .extend (fun head q kept => ?_) fun q since => ⟨since.walk, opened⟩
  refine .unmark kept.1 (.read (reads_modifier _ _) fun word _ => ?_)
  have done (longer : Option MemberHead) (opens : (longer.getD head).Opens p) :
      Runs p .on (pure longer) fun longer q => Walk p q ∧ (longer.getD head).Opens p :=
    .pure fun _ walk => ⟨walk, opens⟩
  split
  · exact done _ kept.2
  · exact .look fun _ => done _ kept.2
  · exact .look fun _ => .look fun _ => .look fun _ => done _ kept.2
  · exact .look fun _ => done _ kept.2
  · exact .look fun _ => done _ kept.2

private theorem Sound.staticBlock (sound : g.Sound) {head : MemberHead} (opened : head.Opens p) :
    Runs p b (staticBlock g head) (Taken p) := by
  refine .take sound.block.takes.within fun body taken => ?_
  rw [opened.1]
  exact .built (by simpa using taken) fun tree taken _ => .past (.taken taken)

private theorem Sound.accessorMember (sound : g.Sound) {head : MemberHead} (opened : head.Opens p)
    (isGetter : Bool) : Runs p b (accessorMember g head isGetter) (Taken p) := by
  refine .take sound.memberKey fun key from_key => .look fun _ => .look fun _ => ?_
  refine sound.classMethod opened from_key ?_ _ _
  split
  · exact sound.getterParameters
  · exact sound.setterParameters

private theorem Sound.memberFromKey (sound : g.Sound) {head : MemberHead} (opened : head.Opens p) :
    Runs p b (memberFromKey g head) (Taken p) := by
  refine .take sound.memberKey fun key from_key => .read (eats_eat _).reads fun isOptional _ => ?_
  refine .look fun _ => .ite (.look fun _ => .ite ?_ ?_) ?_
  · exact sound.constructorMember opened from_key
  · exact sound.classMethod opened from_key sound.formalParameters _ _
  refine .look fun _ => .look fun _ => .look fun _ => .look fun _ => .ite ?_ ?_
  · exact sound.classProperty opened from_key isOptional
  refine .look fun _ => .ite ?_ (.ite (sound.accessorMember opened _) .refuse)
  refine .read (reads_modifier _ _) fun _ _ => .check ?_
  refine .read (eats_eat _).reads fun isGenerator _ => .take sound.memberKey fun key from_key => ?_
  refine .look fun _ => .look fun _ => .read (eats_eat _).reads fun _ _ => ?_
  exact sound.classMethod opened from_key sound.formalParameters _ _

private theorem Sound.memberAfterModifiers (sound : g.Sound) {head : MemberHead} (opened : head.Opens p) :
    Runs p b (memberAfterModifiers g head) (Taken p) := by
  refine .look fun _ => .ite (.look fun _ => sound.staticBlock opened) ?_
  extract_lets unindexed
  have unindexed_takes {c : Progress} : Runs p c (unindexed ()) (Taken p) := by
    refine .eat (eats_eat _) ?_ (sound.memberFromKey opened)
    refine .take sound.memberKey fun key from_key => .look fun _ => .look fun _ => ?_
    exact sound.classMethod opened from_key sound.formalParameters _ _
  refine .ite (.seekTake sound.indexSignature? (fun tree taken => .taken taken) ?_) unindexed_takes
  exact unindexed_takes

/-- A word that modifies a member or names it. What is known of the member so far stays true. -/
theorem Sound.wordModifier (sound : g.Sound) {head : MemberHead} (opened : head.Opens p) (name : String)
    (lineEnds : Bool) :
    Runs p .on (wordModifier g head name lineEnds) fun answer => Sought (Taken p) p answer.2 := by
  refine .mark fun q walk => .start (.eats (eats_eatWord _) ?_ (.pure fun r same => ?_))
  · refine .built from_nil fun key from_key _ => ?_
    have from_key : From p key := Sited.earlier walk from_key
    have complete {member : Parser ClassMember} (taken : Runs p .past member (Taken p)) :
        Runs p .past (do return (true, some (← member))) fun answer => Sought (Taken p) p answer.2 :=
      .bind taken fun member r taken => .pure fun r' same => by
        rw [show r' = r from same]
        exact ⟨nofun, fun _ is => by cases is; exact taken⟩
    refine .past (.unmark walk (.look fun _ => .ite ?_ (.look fun _ => .look fun _ => .ite ?_ ?_)))
    · exact complete (sound.classMethod opened from_key sound.formalParameters _ _)
    · refine .read (eats_eat _).reads fun isOptional _ => ?_
      exact complete (sound.classProperty opened from_key isOptional)
    · exact .pure fun _ past => ⟨fun _ => Past.walk past, nofun⟩
  · exact ⟨fun _ => (show r = q from same) ▸ walk, nofun⟩

/-- How a member is read behind a word that modifies it. -/
theorem Sound.wordModifier_then (sound : g.Sound) {head : MemberHead} (opened : head.Opens p)
    {name : String} {lineEnds : Bool} {k : Bool × Option ClassMember → Parser ClassMember}
    (complete : ∀ taken member, From p member → Runs p .past (k (taken, some member)) (Taken p))
    (next : ∀ taken, Runs p .on (k (taken, none)) (Taken p)) :
    Runs p .on (Grammar.wordModifier g head name lineEnds >>= k) (Taken p) := by
  refine .bind (sound.wordModifier opened name lineEnds) fun answer q sought => ?_
  obtain ⟨taken, found⟩ := answer
  cases found with
  | none => exact .unmark (sought.1 rfl) (next taken)
  | some member =>
    have answered := sought.2 member rfl
    exact .unmarkPast answered.1 (complete taken member answered.2)

private theorem Sound.classMember (sound : g.Sound) : Takes (classMember g) := by
  refine fun p => .start (.read sound.decorators fun decorating from_decorating => ?_)
  refine sound.wordModifier_then ?_ (fun _ member taken => .taken taken) fun declaredFirst => ?_
  · exact ⟨rfl, from_decorating⟩
  refine .read (reads_modifier _ _) fun access _ => ?_
  extract_lets head declared
  have declared_takes (declaredSecond : Bool) : Runs p .on (declared (declaredSecond, none)) (Taken p) := by
    refine sound.wordModifier_then ?_ (fun _ member taken => .taken taken) fun isStatic => ?_
    · exact ⟨rfl, from_decorating⟩
    refine sound.wordModifier_then ?_ (fun _ member taken => .taken taken) fun accessorFirst => ?_
    · exact ⟨rfl, from_decorating⟩
    refine .bind (memberModifiers_runs ?_) fun head q kept => .unmark kept.1 (.ite (.got ?_) ?_)
    · exact ⟨rfl, from_decorating⟩
    · refine sound.memberAfterModifiers ?_
      exact kept.2
    · refine sound.wordModifier_then kept.2 (fun _ member taken => .taken taken) fun accessorSecond => ?_
      refine sound.memberAfterModifiers ?_
      exact kept.2
  refine .ite (.got (declared_takes false)) ?_
  refine sound.wordModifier_then ?_ (fun _ member taken => .taken taken) declared_takes
  exact ⟨rfl, from_decorating⟩

private theorem Sound.classMembers (sound : g.Sound) : Takes (classMembers g) := by
  refine fun p => .take (takes_expect _) fun _ _ => ?_
  refine .read (reads_many fun q => ?_) fun members from_members => ?_
  · refine .look fun _ => .ite (.give from_none) (.eat (eats_eat _) (.give (from_some.mpr from_none)) ?_)
    exact .take sound.classMember fun member taken => .give (by simpa using taken)
  · refine .take (takes_expect _) fun _ _ => .taken fun member inside => ?_
    simp only [List.mem_filterMap, id_eq, exists_eq_right] at inside
    exact from_some.mp (from_members _ inside)

/-! ## Classes -/

private theorem Sound.superclass (sound : g.Sound) : Takes (superclass g) := by
  refine fun p => .take sound.leftHandSide.takes fun tree from_tree => .look fun _ => .ite ?_ (.got ?_)
  · exact .take sound.typeArguments fun types from_types => .taken ⟨from_tree, from_types⟩
  · exact .taken ⟨from_tree, from_nil⟩

/-- Names of interfaces are taken with their type arguments. -/
theorem Sound.heritage (sound : g.Sound) : Takes (heritage g) := by
  unfold Grammar.heritage
  extract_lets item
  have takes : Takes item := by
    refine fun p => .start (.take takes_entityName fun _ _ => .look fun _ => .ite ?_ (.got (.node from_nil)))
    exact .take sound.typeArguments fun types taken => .node taken
  refine fun p => .take takes fun first from_first => ?_
  refine .read (reads_manyAfter _ takes) fun others from_others => ?_
  exact .taken (from_cons.mpr ⟨from_first, from_others⟩)

/-- The decorators of a class may stand before it. -/
theorem Sound.classFrom (sound : g.Sound) {decorating : List Tree} (walk : Walk o p)
    (from_decorating : From o decorating) (requiresName isAbstract : Bool) :
    Runs p b (classFrom g p.current.start decorating requiresName isAbstract) (SpannedBehind o p) := by
  refine .take (takes_expectWord _) fun _ _ => .look fun _ => .check ?_
  refine .look fun _ => ?_
  extract_lets named
  have named_spans (name : Option Tree) (from_name : From p name) :
      Runs p .past (named name) (SpannedBehind o p) := by
    refine .look fun _ => .read (sound.typeParameters? _ _) fun typeParams from_typeParams => ?_
    extract_lets based
    have based_spans (base baseTypes : List Tree) (from_base : From p base) (from_types : From p baseTypes) :
        Runs p .past (based (base, baseTypes)) (SpannedBehind o p) := by
      refine .eatOr (eats_eatWord _) sound.heritage from_nil fun interfaces from_interfaces => ?_
      refine .look fun _ => .look fun _ => .check ?_
      refine .take sound.classMembers.within fun members from_members => ?_
      refine .look fun _ => .look fun _ => .look fun _ => .buildBehind walk ?_
      have from_trees : From p (members.map (·.tree)) := from_map from_members fun _ taken => taken
      have from_rest := Sited.earlier walk (from_append.mpr ⟨from_append.mpr ⟨from_append.mpr
        ⟨from_append.mpr ⟨from_trees, from_base⟩, from_typeParams⟩, from_types⟩, from_interfaces⟩)
      have from_name := Sited.earlier walk from_name
      simpa [from_name, from_decorating] using from_rest
    refine .eat (eats_eatWord _) (.take sound.superclass fun found taken => ?_) (.got ?_)
    · obtain ⟨base, types⟩ := found
      have based_spans := based_spans [base] types (by simpa using taken.1) taken.2
      refine .eat (eats_eat _) (.take sound.heritage fun _ _ => .look fun _ => .got ?_) (.got ?_)
      · exact based_spans
      · exact based_spans
    · exact based_spans [] [] from_nil from_nil
  refine .ite (.got (named_spans none from_none)) ?_
  exact .read (reads_optionalName _) fun name taken => named_spans name taken

end Harvest.TypeScript.Grammar
