import Harvest.Proofs.TypeScript.Grammar.Basic
import Harvest.TypeScript.Grammar.Type

/-!
# Types take what they cover
-/

namespace Harvest.TypeScript.Grammar

open Harvest.TypeScript.Parser Place

variable {g : Grammar} {p : Place} {b : Progress}

/-! ## Members of object types -/

private theorem reads_memberEnd : Reads memberEnd :=
  fun _ => .eat (eats_eat _) (.give trivial) reads_expectSemicolon.last

instance : Looks isAtIndexSignature := by unfold isAtIndexSignature; infer_instance

/-- An index signature is taken where there is one. -/
theorem Sound.indexSignature? (sound : g.Sound) : Seeks (indexSignature? g) := by
  refine fun p => .look fun _ => .ite .unsought (.start (.take takes_advance fun _ _ => ?_))
  refine .take spans_identifierName.takes fun _ _ => .read sound.typing? fun key from_key => ?_
  refine .take (takes_expect _) fun _ _ => .read sound.typing? fun value from_value => ?_
  exact .read reads_memberEnd fun _ _ => .sought (.node (from_append.mpr ⟨from_key, from_value⟩))

private theorem Sound.typeMemberKey (sound : g.Sound) : Takes (typeMemberKey g) := by
  refine fun p => .start (.look fun token => ?_)
  split
  · refine .take takes_advance fun _ _ => .take sound.assignment.takes fun key from_key => ?_
    exact .take (takes_expect _) fun _ _ => .node (by simpa using from_key)
  · exact .look fun _ => .take takes_advance fun _ _ => .node from_nil
  · exact spans_stringLiteral.takes p
  · exact spans_numericLiteral.takes p
  · exact spans_numericLiteral.takes p
  · exact spans_identifierName.takes p

private theorem Sound.callSignature (sound : g.Sound) : Takes (callSignature g) := by
  refine fun p => .read (sound.typeParameters? _ _) fun typeParams from_typeParams => ?_
  refine .take (takes_expect _) fun _ _ => .take sound.signatureParameters fun params from_params => ?_
  refine .optionalAt (sound.resultType _) fun result from_result => ?_
  exact .taken (by simp [from_typeParams, from_params, from_result])

private theorem Sound.accessorSignature (sound : g.Sound) : Seeks (accessorSignature g) := by
  refine fun p => .start (.read (eats_eatWord _).reads fun _ _ => .maybe (takes_expectWord _).reads ?_)
  refine .take sound.typeMemberKey fun key from_key => .take (takes_expect _) fun _ _ => .ite ?_ ?_
  · refine .take (takes_expect _) fun _ _ => .read sound.typing? fun typing from_typing => ?_
    exact .read reads_memberEnd fun _ _ => .sought (.node (from_cons.mpr ⟨from_key, from_typing⟩))
  · refine .take sound.signatureParameters fun params from_params => .check ?_
    exact .read reads_memberEnd fun _ _ => .sought (.node (from_cons.mpr ⟨from_key, from_params⟩))

private theorem Sound.propertySignature (sound : g.Sound) (isReadonly : Bool) :
    Takes (propertySignature g isReadonly) := by
  refine fun p => .start (.take sound.typeMemberKey fun key from_key => ?_)
  refine .read (eats_eat _).reads fun _ _ => .look fun _ => .look fun _ => .ite (.check ?_) ?_
  · refine .take sound.callSignature fun signature from_signature => .read reads_memberEnd fun _ _ => ?_
    exact .node (from_cons.mpr ⟨from_key, from_signature⟩)
  · refine .read sound.typing? fun typing from_typing => .read reads_memberEnd fun _ _ => ?_
    exact .node (from_cons.mpr ⟨from_key, from_typing⟩)

instance : Looks isAtConstructSignature := by unfold isAtConstructSignature; infer_instance

private theorem Sound.typeMember (sound : g.Sound) : Takes (typeMember g) := by
  refine fun p => .start (.look fun _ => .look fun _ => .ite ?_ ?_)
  · refine .take sound.callSignature fun signature from_signature => .read reads_memberEnd fun _ _ => ?_
    exact .node from_signature
  refine .look fun _ => .ite ?_ ?_
  · refine .take takes_advance fun _ _ => .take sound.callSignature fun signature from_signature => ?_
    exact .read reads_memberEnd fun _ _ => .node from_signature
  refine .read (reads_modifier _ _) fun isReadonly _ => ?_
  refine .seekTake sound.indexSignature? (fun signature taken => .taken taken) (.ite ?_ ?_)
  · exact .attemptTake sound.accessorSignature (fun accessor taken => .taken taken)
      (sound.propertySignature _).last
  · exact (sound.propertySignature _).last

/-- The members of an object type are taken with their braces. -/
theorem Sound.typeMembers (sound : g.Sound) : Takes (typeMembers g) := by
  refine fun p => .take (takes_expect _) fun _ _ => ?_
  refine .read (reads_manyUntil _ sound.typeMember) fun members from_members => ?_
  exact .take (takes_expect _) fun _ _ => .taken from_members

/-! ## Types in brackets and braces -/

instance : Looks isAtMappedType := by unfold isAtMappedType; infer_instance

private theorem reads_eatSign : Reads eatSign :=
  fun _ => .eat (eats_eat _) (.give trivial) (eats_eat _).reads.last

private theorem Sound.mappedType (sound : g.Sound) : Takes (mappedType g) := by
  refine fun p => .start (.take (takes_expect _) fun _ _ => .read reads_eatSign fun _ _ => ?_)
  extract_lets signed
  have signed_takes : Runs p .past (signed ()) (Taken p) := by
    refine .take (takes_expect _) fun _ _ => .take spans_identifierName.takes fun _ _ => ?_
    refine .take (takes_expectWord _) fun _ _ => .take sound.typeHere fun key from_key => ?_
    refine .optional (eats_eatWord _) sound.typeHere fun renamed from_renamed => ?_
    refine .take (takes_expect _) fun _ _ => .read reads_eatSign fun _ _ => ?_
    extract_lets marked
    have marked_takes : Runs p .past (marked ()) (Taken p) := by
      refine .read sound.typing? fun value from_value => .read reads_expectSemicolon fun _ _ => ?_
      refine .take (takes_expect _) fun _ _ => ?_
      exact .node (by simp [from_key, from_renamed, from_value])
    refine .ite (.take (takes_expect _) fun _ _ => marked_takes) ?_
    exact .read (eats_eat _).reads fun _ _ => marked_takes
  refine .ite (.take (takes_expectWord _) fun _ _ => signed_takes) ?_
  exact .read (eats_eatWord _).reads fun _ _ => signed_takes

private theorem seeks_tupleLabel : Seeks tupleLabel := by
  refine fun p => .read (eats_eat _).reads fun rest _ => .take spans_identifierName.takes fun _ _ => ?_
  refine .read (eats_eat _).reads fun _ _ => ?_
  exact .take (takes_expect _) fun _ _ => .pure fun q past => ⟨nofun, fun _ _ => ⟨past, trivial⟩⟩

private theorem Sound.tupleElement (sound : g.Sound) : Takes (tupleElement g) := by
  refine fun p => .start (.read seeks_tupleLabel.attempt fun _ _ => .eat (eats_eat _) ?_ ?_)
  · exact .take sound.typeHere fun element taken => .node (by simpa using taken)
  · refine .take sound.typeHere fun element taken => .eat (eats_eat _) ?_ (.taken taken)
    exact .node (by simpa using taken)

private theorem Sound.tupleType (sound : g.Sound) : Takes (tupleType g) := by
  refine fun p => .start (.take (takes_expect _) fun _ _ => ?_)
  refine .take (takes_commaSeparated _ sound.tupleElement) fun elements from_elements => ?_
  exact .check (.node from_elements)

/-- A stretch of a template and what is read behind it. -/
theorem Sound.templateType (sound : g.Sound) : Takes (templateType g) := by
  refine fun p => .start (.take (takes_many fun q => .get fun s same => .check ?_) fun types from_types => ?_)
  · subst same
    split
    · exact .refuse
    · rename_i chunk read
      refine .check (.advanceTo (.chunk read) (.ite (.taken from_none) ?_))
      exact .take sound.typeHere fun type taken => .taken (from_some.mpr taken)
  · exact .node from_types

/-! ## References and queries -/

/-- A dotted name is taken. -/
theorem takes_entityName : Takes entityName := by
  refine fun p => .take spans_identifierName.takes fun _ _ => ?_
  refine .read (reads_many fun q => ?_) fun _ _ => .taken trivial
  refine .eat (eats_eat _) ?_ (.give from_none)
  exact .take spans_identifierName.takes fun _ _ => .give (from_some.mpr trivial)

private theorem Sound.typeArgumentsHere? (sound : g.Sound) : Reads (typeArgumentsHere? g) :=
  fun _ => .look fun _ => .look fun _ => .ite sound.typeArguments.reads.last (.give from_nil)

private theorem Sound.typeReference (sound : g.Sound) : Takes (typeReference g) :=
  fun _ => .start (.take takes_entityName fun _ _ =>
    .read sound.typeArgumentsHere? fun _ taken => .node taken)

private theorem Sound.importType (sound : g.Sound) : Takes (importType g) := by
  refine fun p => .start (.take (takes_expectWord _) fun _ _ => .take (takes_expect _) fun _ _ => ?_)
  extract_lets attributed named
  have attributed_takes (attributes : List Tree) (from_attributes : From p attributes) :
      Runs p .past (attributed attributes) (Taken p) := by
    refine .take (takes_expect _) fun _ _ => ?_
    extract_lets qualified
    have qualified_takes : Runs p .past (qualified ()) (Taken p) := by
      refine .read sound.typeArgumentsHere? fun types from_types => ?_
      exact .node (from_append.mpr ⟨from_attributes, from_types⟩)
    exact .eat (eats_eat _) (.take takes_entityName fun _ _ => qualified_takes) qualified_takes
  have named_takes : Runs p .past (named ()) (Taken p) := by
    refine .eat (eats_eat _) (.look fun _ => .ite (.got (attributed_takes [] from_nil)) ?_)
      (.got (attributed_takes [] from_nil))
    refine .take sound.assignment.takes fun options taken => .read (eats_eat _).reads fun _ _ => .got ?_
    exact attributed_takes [options] (by simpa using taken)
  refine .look fun _ => .ite (.take spans_stringLiteral.takes fun _ _ => named_takes) ?_
  exact .look fun _ => .take takes_advance fun _ _ => named_takes

private theorem Sound.typeQuery (sound : g.Sound) : Takes (typeQuery g) := by
  refine fun p => .start (.take (takes_expectWord _) fun _ _ => .look fun _ => .ite ?_ ?_)
  · exact sound.importType.last
  · exact .take takes_entityName fun _ _ => .read sound.typeArgumentsHere? fun _ taken => .node taken

/-! ## Functions -/

instance : Looks isAtFunctionType := by unfold isAtFunctionType; infer_instance

private theorem Sound.functionType (sound : g.Sound) : Takes (functionType g) := by
  refine fun p => .start (.read (sound.typeParameters? _ _) fun typeParams from_typeParams => ?_)
  refine .take (takes_expect _) fun _ _ => .take sound.signatureParameters fun params from_params => ?_
  refine .take (sound.resultType _) fun result from_result => ?_
  exact .node (by simp [from_params, from_result, from_typeParams])

/-! ## Operators on types -/

private theorem Sound.primaryType (sound : g.Sound) : Takes (primaryType g) := by
  refine fun p => .start (.look fun token => ?_)
  split
  · exact spans_stringLiteral.takes p
  · exact spans_numericLiteral.takes p
  · exact spans_numericLiteral.takes p
  · exact sound.templateType p
  · exact .take takes_advance fun _ _ => spans_numericLiteral.takes.last
  · refine .look fun _ => .ite (sound.mappedType p) ?_
    exact .take sound.typeMembers fun members taken => .node taken
  · exact sound.tupleType p
  · refine .take takes_advance fun _ _ => .take sound.typeHere fun inner taken => ?_
    exact .take (takes_expect _) fun _ _ => .node (by simpa using taken)
  · exact sound.importType p
  · exact sound.typeQuery p
  · exact .take takes_advance fun _ _ => .node from_nil
  · exact .take takes_advance fun _ _ => .node from_nil
  · refine .take takes_advance fun _ _ => .look fun _ => .look fun _ => .ite ?_ (.node from_nil)
    refine .take takes_advance fun _ _ => .take sound.type fun narrowed taken => ?_
    exact .node (by simpa using taken)
  · refine .look fun _ => .ite ?_ (sound.typeReference p)
    refine .take takes_advance fun _ _ => .take takes_advance fun _ _ => ?_
    exact .optional (eats_eatWord _) sound.type fun narrowed taken => .node taken
  · refine .check (.look fun _ => .ite ?_ (sound.typeReference p))
    exact .take takes_advance fun _ _ => .node from_nil
  · exact .refuse

private theorem Sound.postfixType (sound : g.Sound) : Takes (postfixType g) := by
  refine fun p => .start (.take sound.primaryType fun element from_element => ?_)
  refine .extend (fun type q taken => ?_) fun q past => ⟨past, from_element⟩
  refine .unmarkPast taken.1 (.look fun _ => .ite (.asLong (.taken taken.2)) ?_)
  refine .eats (eats_eat _) (.eat (eats_eat _) ?_ ?_) (.asLong (.taken taken.2))
  · exact .longer (.node (by simpa using taken.2))
  · refine .take sound.typeHere fun index from_index => .take (takes_expect _) fun _ _ => ?_
    exact .longer (.node (by simp [taken.2, from_index]))

private theorem Sound.inferredBound (sound : g.Sound) : Seeks (inferredBound g) := by
  refine fun p => .take (takes_expectWord _) fun _ _ => .take sound.plainType.within fun bound taken => ?_
  refine .look fun _ => .look fun _ => .ite ?_ .unsought
  exact .sought (.taken taken)

/-- A type with operators in front of it is taken. -/
theorem Sound.parse_typeOperator (sound : g.Sound) : Takes (Grammar.typeOperator g) := by
  refine fun p => .start (.look fun token => ?_)
  split
  · refine .take takes_advance fun _ _ => .take sound.typeOperator fun operand taken => ?_
    exact .node (by simpa using taken)
  · refine .take takes_advance fun _ _ => .take sound.typeOperator fun operand taken => ?_
    exact .node (by simpa using taken)
  · refine .take takes_advance fun _ _ => .take sound.typeOperator fun operand taken => .look fun _ => ?_
    exact .node (by simpa using taken)
  · refine .take takes_advance fun _ _ => .take spans_identifierName.takes fun _ _ => ?_
    refine .attemptTake sound.inferredBound (fun bound taken => ?_) (.node from_nil)
    exact .node (by simpa using taken)
  · exact sound.postfixType p

private theorem takes_joinedTypes (operator : Punctuator) {operand : Parser Tree} (takes : Takes operand) :
    Takes (joinedTypes operator operand) := by
  refine fun p => .start (.read (eats_eat _).reads fun _ _ => .take takes fun first from_first => ?_)
  refine .look fun _ => .ite ?_ (.taken from_first)
  refine .read (reads_manyAfter _ takes) fun others from_others => ?_
  exact .node (from_cons.mpr ⟨from_first, from_others⟩)

/-- A type that is not conditional is taken. -/
theorem Sound.parse_plainType (sound : g.Sound) : Takes (Grammar.plainType g) := by
  refine fun p => .look fun _ => .ite sound.functionType.last (.look fun _ => .look fun _ => .ite ?_ ?_)
  · exact .take takes_advance fun _ _ => .take takes_advance fun _ _ => sound.functionType.last
  refine .eat (eats_eatWord _) sound.functionType.last ?_
  exact takes_joinedTypes _ (takes_joinedTypes _ sound.typeOperator) p

/-- A type is taken in each of its forms. -/
theorem Sound.parse_type (sound : g.Sound) : Takes (Grammar.type g) := by
  refine fun p => .start (.take sound.parse_plainType fun checked from_checked => ?_)
  refine .look fun _ => .look fun _ => .ite (.taken from_checked) ?_
  refine .eats (eats_eatWord _) ?_ (.taken from_checked)
  refine .take sound.parse_plainType.within fun bound from_bound => .take (takes_expect _) fun _ _ => ?_
  refine .take sound.typeHere fun holds from_holds => .take (takes_expect _) fun _ _ => ?_
  refine .take sound.typeHere fun fails from_fails => ?_
  exact .node (by simp [from_checked, from_bound, from_holds, from_fails])

end Harvest.TypeScript.Grammar
