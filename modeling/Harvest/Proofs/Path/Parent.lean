import Harvest.Proofs.Path.Components

/-!
# The directory that a path lies in

The parent of a path is the path without its last component, and without what stands behind the one
before: slashes and single dots, which are no components. So the parent of a path continued by a name is
the path that was continued, up to what stands at its end. The two differ in their texts, but not where a
path is spelled as the system spells a working directory, by names from the root.
-/

namespace Harvest.Path

variable {base continuation : Path} {names parts : List String} {name : String}

/-! ## Idle parts -/

private theorem dropIdle_cons {part : String} {more : List String} (filled : more ≠ []) :
    dropIdle (part :: more) = if part = "" ∨ part = "." then dropIdle more else part :: more := by
  obtain ⟨next, rest, rfl⟩ := List.exists_cons_of_ne_nil filled
  rw [dropIdle]
  · simp only [Bool.or_eq_true, beq_iff_eq]
  · exact fun h => List.cons_ne_nil _ _ h

private theorem dropIdle_cons_of_isName (named : isName name = true) (more : List String) :
    dropIdle (name :: more) = name :: more := by
  cases more with
  | nil => rfl
  | cons next rest =>
    simp only [isName, Bool.and_eq_true, bne_iff_ne, ne_eq] at named
    rw [dropIdle_cons (List.cons_ne_nil _ _), if_neg]
    exact not_or.mpr ⟨named.1.1.1, named.1.1.2⟩

private theorem dropIdle_suffix (parts : List String) : dropIdle parts <:+ parts := by
  fun_induction dropIdle parts with
  | case1 => exact List.suffix_refl _
  | case2 => exact List.suffix_refl _
  | case3 part more _ _ ih => exact ih.trans (List.suffix_cons _ _)
  | case4 => exact List.suffix_refl _

private theorem dropIdle_ne_nil (filled : parts ≠ []) : dropIdle parts ≠ [] := by
  fun_induction dropIdle parts with
  | case1 => exact filled
  | case2 => exact filled
  | case3 part more single _ ih => exact ih single
  | case4 => exact filled

private theorem getLast?_dropIdle (parts : List String) : (dropIdle parts).getLast? = parts.getLast? := by
  fun_induction dropIdle parts with
  | case1 => rfl
  | case2 => rfl
  | case3 part more single _ ih =>
    obtain ⟨next, rest, rfl⟩ := List.exists_cons_of_ne_nil single
    rw [ih, List.getLast?_cons_cons]
  | case4 => rfl

/-- Only parts that are no components are dropped. -/
theorem filterMap_dropIdle (parts : List String) :
    (dropIdle parts).filterMap innerComponent? = parts.filterMap innerComponent? := by
  fun_induction dropIdle parts with
  | case1 => rfl
  | case2 => rfl
  | case3 part more _ idle ih =>
    rw [ih, List.filterMap_cons_none]
    simp only [innerComponent?, idle, if_true]
  | case4 => rfl

/-- What is left behind the part in front ends with a component. -/
theorem innerComponent?_of_dropIdle {part next : String} {rest : List String}
    (left : dropIdle parts = part :: next :: rest) :
    ∃ last, innerComponent? part = some last := by
  fun_induction dropIdle parts with
  | case1 => cases left
  | case2 => cases left
  | case3 part more _ _ ih => exact ih left
  | case4 part more _ counted =>
    cases left
    unfold innerComponent?
    rw [if_neg counted]
    split
    · exact ⟨_, rfl⟩
    · exact ⟨_, rfl⟩

/-! ## Components -/

private theorem isAbsolute_iff {path : Path} (filled : path.text ≠ "") :
    path.isAbsolute = true ↔ path.parts.head? = some "" := by
  unfold isAbsolute parts
  cases chars : path.text.toList with
  | nil => exact absurd (String.toList_eq_nil_iff.mp chars) filled
  | cons c rest =>
    obtain ⟨part, parts, split⟩ := List.exists_cons_of_ne_nil (splitSlash_ne_nil rest)
    rw [splitSlash, split]
    by_cases slash : c = '/'
    · simp [slash]
    · simp [slash]

/-- The components that parts stand for when they are not all of an empty path. -/
def componentsOf (parts : List String) : List Component :=
  lead (parts.head? == some "") parts ++ parts.filterMap innerComponent?

private theorem components_eq_componentsOf {path : Path} (filled : path.text ≠ "") :
    path.components = componentsOf path.parts := by
  have front : path.isAbsolute = (path.parts.head? == some "") := by
    rw [Bool.eq_iff_iff, isAbsolute_iff filled, beq_iff_eq]
  rw [components_eq, front]
  rfl

/-- The path with these parts. A single empty part in front of others is the root. -/
def spelled (parts : List String) : Path := if parts = [""] then ⟨"/"⟩ else ofParts parts

private theorem components_spelled {parts : List String} (plain : ∀ part ∈ parts, '/' ∉ part.toList)
    (filled : parts ≠ []) : (spelled parts).components = componentsOf parts := by
  unfold spelled
  split
  · rename_i root
    rw [root]
    rfl
  · rename_i notRoot
    have same := parts_ofParts plain filled
    rw [components_eq_componentsOf, same]
    intro empty
    rw [show ofParts parts = ⟨""⟩ from congrArg Path.mk empty] at same
    exact notRoot same.symm

/-- Parts, given backwards, stand for the same components without the idle ones at their end. -/
theorem componentsOf_dropIdle (parts : List String) :
    componentsOf (dropIdle parts).reverse = componentsOf parts.reverse := by
  unfold componentsOf lead
  rw [List.head?_reverse, List.head?_reverse, getLast?_dropIdle, List.filterMap_reverse,
    List.filterMap_reverse, filterMap_dropIdle]

private theorem componentsOf_concat {last : Component} {part : String} (filled : parts ≠ [])
    (counted : innerComponent? part = some last) :
    componentsOf (parts ++ [part]) = componentsOf parts ++ [last] := by
  obtain ⟨front, others, rfl⟩ := List.exists_cons_of_ne_nil filled
  unfold componentsOf lead
  rw [List.filterMap_append, List.filterMap_cons_some counted, List.filterMap_nil, ← List.append_assoc]
  rfl

private theorem exists_componentsOf_singleton {part : String} (named : part ≠ "") :
    ∃ last, componentsOf [part] = [last] := by
  unfold componentsOf lead
  by_cases dot : part = "."
  · rw [dot]
    exact ⟨.current, rfl⟩
  · by_cases dots : part = ".."
    · rw [dots]
      exact ⟨.parent, rfl⟩
    · exact ⟨.name part, by simp [innerComponent?, named, dot, dots]⟩

/-! ## Parents -/

/-- All that the parent of a path can be. -/
theorem parent?_cases (path : Path) :
    (dropIdle path.parts.reverse = [""] ∧ path.parent? = none) ∨
    (∃ part, part ≠ "" ∧ dropIdle path.parts.reverse = [part] ∧ path.parent? = some ⟨""⟩) ∨
    (∃ part next rest, dropIdle path.parts.reverse = part :: next :: rest ∧
      path.parent? = some (spelled (dropIdle (next :: rest)).reverse)) := by
  unfold parent?
  cases left : dropIdle path.parts.reverse with
  | nil => exact absurd left (dropIdle_ne_nil (mt List.reverse_eq_nil_iff.mp (parts_ne_nil path)))
  | cons part others =>
    cases others with
    | nil =>
      by_cases empty : part = ""
      · rw [empty]
        exact .inl ⟨rfl, rfl⟩
      · refine .inr (.inl ⟨part, empty, rfl, ?_⟩)
        simp
    | cons next rest =>
      refine .inr (.inr ⟨part, next, rest, rfl, ?_⟩)
      simp only [spelled]
      split
      · rename_i root
        rw [root]
        rfl
      · rename_i notRoot
        rw [if_neg fun root => notRoot (List.reverse_eq_iff.mp root)]
        rfl

private theorem text_ne_empty_of_dropIdle (left : dropIdle base.parts.reverse ≠ [""]) : base.text ≠ "" := by
  intro empty
  apply left
  unfold Path.parts
  rw [empty]
  rfl

/-- **The parent of a path** is that path without its last component. -/
theorem components_of_parent? {path parent : Path} (up : path.parent? = some parent) :
    ∃ last, path.components = parent.components ++ [last] := by
  have whole (left : dropIdle path.parts.reverse ≠ [""]) :
      path.components = componentsOf (dropIdle path.parts.reverse).reverse := by
    rw [componentsOf_dropIdle, List.reverse_reverse,
      components_eq_componentsOf (text_ne_empty_of_dropIdle left)]
  obtain ⟨_, top⟩ | ⟨part, named, left, above⟩ | ⟨part, next, rest, left, above⟩ := parent?_cases path
  · cases top.symm.trans up
  · cases above.symm.trans up
    rw [left] at whole
    rw [whole (by simpa using named)]
    exact exists_componentsOf_singleton named
  · cases above.symm.trans up
    rw [left] at whole
    obtain ⟨last, counted⟩ := innerComponent?_of_dropIdle left
    have plain : ∀ part ∈ (dropIdle (next :: rest)).reverse, '/' ∉ part.toList := by
      intro part member
      have inside : part ∈ dropIdle path.parts.reverse := by
        rw [left]
        exact List.mem_cons_of_mem _ ((dropIdle_suffix _).subset (List.mem_reverse.mp member))
      exact slash_not_mem_of_mem_parts (List.mem_reverse.mp ((dropIdle_suffix _).subset inside))
    refine ⟨last, ?_⟩
    rw [whole (by simp), List.reverse_cons, componentsOf_concat (by simp) counted,
      components_spelled plain, componentsOf_dropIdle]
    exact mt List.reverse_eq_nil_iff.mp (dropIdle_ne_nil (List.cons_ne_nil _ _))

/-- Only the empty path and the root have no parent. -/
theorem eq_of_parent?_eq_none {path : Path} (top : path.parent? = none) :
    path = ⟨""⟩ ∨ path.components = [.root] := by
  by_cases empty : path.text = ""
  · exact .inl (congrArg Path.mk empty)
  · obtain ⟨left, _⟩ | ⟨_, _, _, above⟩ | ⟨_, _, _, _, above⟩ := parent?_cases path
    · right
      have same := componentsOf_dropIdle path.parts.reverse
      rw [left, List.reverse_reverse, ← components_eq_componentsOf empty] at same
      exact same.symm
    · cases above.symm.trans top
    · cases above.symm.trans top

/-- The parent of a path that is continued by a name has the components of that path. -/
theorem exists_parent?_join (base : Path) (named : isName name = true) :
    ∃ parent, (base.join ⟨name⟩).parent? = some parent ∧ parent.components = base.components := by
  have joined : (base.join ⟨name⟩).components = base.components ++ [.name name] := by
    by_cases empty : base = ⟨""⟩
    · rw [empty, join_of_empty named, components_of_isName named]
      rfl
    · exact components_join_name (fun blank => empty (congrArg Path.mk blank)) named
  cases up : (base.join ⟨name⟩).parent? with
  | none =>
    rcases eq_of_parent?_eq_none up with empty | atRoot
    · rw [empty] at joined
      exact absurd joined.symm (List.append_ne_nil_of_right_ne_nil _ (List.cons_ne_nil _ _))
    · have last := congrArg List.getLast? (joined.symm.trans atRoot)
      rw [List.getLast?_concat] at last
      cases last
  | some parent =>
    obtain ⟨last, components⟩ := components_of_parent? up
    exact ⟨parent, rfl, List.append_inj_left' (components.symm.trans joined) rfl⟩

/-- A path without what stands behind its last component. -/
def trimmed (path : Path) : Path :=
  let parts := dropIdle path.parts.reverse
  if parts = [""] then ⟨"/"⟩ else ofParts parts.reverse

/-- What lies in the directory that a path leads to has that path as its parent, without what stands
behind its last component. -/
theorem parent?_join (filled : base.text ≠ "") (named : isName name = true) :
    (base.join ⟨name⟩).parent? = some base.trimmed := by
  obtain ⟨_, front, joined, split⟩ := parts_join filled named
  have frontFilled := front_ne_nil filled split
  have sameTrim : dropIdle base.parts.reverse = dropIdle front.reverse := by
    rcases split with plain | slashed
    · rw [plain]
    · rw [slashed, List.reverse_concat, dropIdle_cons (mt List.reverse_eq_nil_iff.mp frontFilled),
        if_pos (.inl rfl)]
  obtain ⟨last, before, reversed⟩ :=
    List.exists_cons_of_ne_nil (mt List.reverse_eq_nil_iff.mp frontFilled)
  unfold parent? trimmed
  rw [joined, List.reverse_concat, dropIdle_cons_of_isName named, sameTrim, reversed]
  simp only
  split
  · rename_i atRoot
    rw [atRoot]
    rfl
  · rename_i notRoot
    rw [if_neg notRoot]
    rfl

/-! ## Settled paths -/

/-- Nothing stands behind the last component of a path but perhaps one slash: with a slash put at its
end, it is the same as without what stands there. -/
def Settled (path : Path) : Prop := path.trimmed.join ⟨""⟩ = path.join ⟨""⟩

instance (path : Path) : Decidable path.Settled := inferInstanceAs (Decidable (_ = _))

/-- A settled path is not empty. -/
theorem Settled.text_ne_empty (settled : base.Settled) : base.text ≠ "" := by
  obtain ⟨text⟩ := base
  rintro rfl
  exact absurd settled (by decide)

/-- A settled path is continued as it is without what stands behind its last component. -/
theorem Settled.join_trimmed (settled : base.Settled) (continuation : Path) :
    base.trimmed.join continuation = base.join continuation := by
  cases relative : continuation.isAbsolute with
  | true => simp only [join, relative, if_true]
  | false => rw [join_eq_append relative, settled, ← join_eq_append relative]

/-- A joined name leaves nothing to trim. -/
theorem trimmed_join (filled : base.text ≠ "") (named : isName name = true) :
    (base.join ⟨name⟩).trimmed = base.join ⟨name⟩ := by
  obtain ⟨_, front, joined, split⟩ := parts_join filled named
  have notRoot : name :: front.reverse ≠ [""] := by
    intro root
    exact front_ne_nil filled split (List.reverse_eq_nil_iff.mp (List.cons.inj root).2)
  unfold trimmed
  rw [joined, List.reverse_concat, dropIdle_cons_of_isName named]
  simp only
  rw [if_neg notRoot, ← List.reverse_concat, List.reverse_reverse, ← joined, ofParts_parts]

/-- A path that is spelled by names from the root is settled. -/
theorem settled_extend (named : names.all isName = true) : ((Path.mk "/").extend names).Settled := by
  have filled : (Path.mk "/").text ≠ "" := by decide
  cases names using List.reverseRecOn with
  | nil => decide
  | append_singleton names name =>
    rw [List.all_append, Bool.and_eq_true, List.all_cons, Bool.and_eq_true] at named
    unfold Settled
    rw [extend_concat, trimmed_join (text_extend_ne_empty filled named.1) named.2.1]

end Harvest.Path
