import Harvest.Proofs.Path.Parent

/-!
# The way up from a path

The ancestors of a path are what is left of it by dropping its last component again and again, down to the
root or to the empty path. Their number is bounded by the number of its components, and that by the number
of its characters, so the list is never cut off. The ancestors of a directory that the system spells, by
the names that lead to it from the root, are the spellings of the directories that it lies in.
-/

namespace Harvest.Path

variable {path parent : Path} {names : List String} {name : String}

/-! ## How far it is -/

private theorem length_filterMap_cons (part : String) (parts : List String) :
    ((part :: parts).filterMap innerComponent?).length =
      ([part].filterMap innerComponent?).length + (parts.filterMap innerComponent?).length := by
  rw [← List.length_append, ← List.filterMap_append]
  rfl

private theorem length_filterMap_splitSlash_le (text : List Char) :
    (((splitSlash text).map String.ofList).filterMap innerComponent?).length ≤ text.length := by
  induction text with
  | nil => exact Nat.le_refl _
  | cons c rest ih =>
    obtain ⟨part, parts, split⟩ := List.exists_cons_of_ne_nil (splitSlash_ne_nil rest)
    rw [splitSlash, split, List.length_cons]
    rw [split] at ih
    split
    · exact Nat.le_succ_of_le ih
    · have one := List.length_filterMap_le innerComponent? [String.ofList (c :: part)]
      rw [List.length_singleton] at one
      rw [List.map_cons, length_filterMap_cons] at ih ⊢
      omega

/-- The first part of a relative path stands for one component at most. A dot does so in front of the
path, and every other part like the parts behind it. -/
theorem length_front_le (part : String) (others : List String) :
    (lead false (part :: others)).length + ([part].filterMap innerComponent?).length ≤ 1 := by
  have one := List.length_filterMap_le innerComponent? [part]
  unfold lead
  by_cases dot : part = "."
  · rw [dot]
    exact Nat.le_refl _
  · simp only [Bool.false_eq_true, if_false, List.head?_cons, Option.some.injEq, dot, List.length_nil,
      Nat.zero_add]
    exact one

/-- Every component takes a character. -/
theorem length_components_le (path : Path) : path.components.length ≤ path.text.toList.length := by
  rw [components_eq, List.length_append]
  unfold isAbsolute Path.parts
  cases chars : path.text.toList with
  | nil => exact Nat.le_refl _
  | cons c rest =>
    have behind := length_filterMap_splitSlash_le rest
    obtain ⟨part, parts, split⟩ := List.exists_cons_of_ne_nil (splitSlash_ne_nil rest)
    rw [splitSlash, split, List.length_cons]
    rw [split] at behind
    by_cases slash : c = '/'
    · rw [if_pos (beq_iff_eq.mpr slash), slash]
      show 1 + (((part :: parts).map String.ofList).filterMap innerComponent?).length ≤ _
      omega
    · have relative : ((c :: rest).head? == some '/') = false := by simp [slash]
      have front := length_front_le (String.ofList (c :: part)) (parts.map String.ofList)
      rw [if_neg (mt beq_iff_eq.mp slash), relative, List.map_cons, length_filterMap_cons]
      rw [List.map_cons, length_filterMap_cons] at behind
      omega

/-! ## Ancestors -/

private theorem ancestorsUpTo_of_top (top : path.parent? = none) (bound : Nat) :
    ancestorsUpTo bound path = [path] := by
  cases bound with
  | zero => rfl
  | succ bound => rw [ancestorsUpTo, top]

private theorem ancestorsUpTo_of_parent? (up : path.parent? = some parent) (bound : Nat) :
    ancestorsUpTo (bound + 1) path = path :: ancestorsUpTo bound parent := by
  rw [ancestorsUpTo, up]

/-- A bound that the number of components stays within cuts nothing off. -/
theorem ancestorsUpTo_eq {bound other : Nat} (enough : path.components.length ≤ bound)
    (enough' : path.components.length ≤ other) :
    ancestorsUpTo bound path = ancestorsUpTo other path := by
  induction bound generalizing other path with
  | zero =>
    cases up : path.parent? with
    | none => rw [ancestorsUpTo_of_top up, ancestorsUpTo_of_top up]
    | some parent =>
      obtain ⟨last, components⟩ := components_of_parent? up
      rw [components, List.length_append] at enough
      cases Nat.le_zero.mp enough
  | succ bound ih =>
    cases up : path.parent? with
    | none => rw [ancestorsUpTo_of_top up, ancestorsUpTo_of_top up]
    | some parent =>
      obtain ⟨last, components⟩ := components_of_parent? up
      rw [components, List.length_append] at enough enough'
      obtain ⟨fewer, rfl⟩ := Nat.exists_eq_add_one.mpr (Nat.lt_of_lt_of_le (Nat.succ_pos _) enough')
      rw [ancestorsUpTo_of_parent? up, ancestorsUpTo_of_parent? up,
        ih (Nat.le_of_succ_le_succ enough) (Nat.le_of_succ_le_succ enough')]

/-- A path without a parent is its own only ancestor. -/
theorem ancestors_of_top (top : path.parent? = none) : path.ancestors = [path] :=
  ancestorsUpTo_of_top top _

/-- **The ancestors of a path** are itself and the ancestors of its parent. -/
theorem ancestors_of_parent? (up : path.parent? = some parent) :
    path.ancestors = path :: parent.ancestors := by
  obtain ⟨last, components⟩ := components_of_parent? up
  have enough := length_components_le path
  rw [components, List.length_append] at enough
  obtain ⟨bound, long⟩ := Nat.exists_eq_add_one.mpr (Nat.lt_of_lt_of_le (Nat.succ_pos _) enough)
  rw [long] at enough
  rw [ancestors, long, ancestorsUpTo_of_parent? up,
    ancestorsUpTo_eq (Nat.le_of_succ_le_succ enough) (length_components_le parent), ancestors]

/-- What is left of a path when its last component has been dropped a number of times, if it can be. -/
def ancestorAt? (path : Path) : Nat → Option Path
  | 0 => some path
  | times + 1 => (path.ancestorAt? times).bind parent?

private theorem ancestorAt?_succ (path : Path) (times : Nat) :
    path.ancestorAt? (times + 1) = path.parent?.bind (·.ancestorAt? times) := by
  induction times with
  | zero => exact (Option.bind_fun_some path.parent?).symm
  | succ times ih =>
    rw [ancestorAt?, ih]
    cases path.parent? <;> rfl

/-- The list has every ancestor in its place, and no other. -/
theorem getElem?_ancestors (path : Path) (times : Nat) :
    path.ancestors[times]? = path.ancestorAt? times := by
  induction times generalizing path with
  | zero =>
    cases up : path.parent? with
    | none => rw [ancestors_of_top up]; rfl
    | some parent => rw [ancestors_of_parent? up]; rfl
  | succ times ih =>
    rw [ancestorAt?_succ]
    cases up : path.parent? with
    | none => rw [ancestors_of_top up]; rfl
    | some parent => rw [ancestors_of_parent? up, List.getElem?_cons_succ, ih]; rfl

/-- One component is dropped at a time. -/
theorem components_of_ancestorAt? {times : Nat} {above : Path}
    (reached : path.ancestorAt? times = some above) :
    ∃ dropped, path.components = above.components ++ dropped ∧ dropped.length = times := by
  induction times generalizing above with
  | zero =>
    cases reached
    exact ⟨[], (List.append_nil _).symm, rfl⟩
  | succ times ih =>
    obtain ⟨below, before, up⟩ := Option.bind_eq_some_iff.mp reached
    obtain ⟨dropped, components, length⟩ := ih before
    obtain ⟨last, shorter⟩ := components_of_parent? up
    refine ⟨last :: dropped, ?_, congrArg Nat.succ length⟩
    rw [components, shorter, List.append_assoc, List.singleton_append]

/-- The way up ends, at the root or at the empty path. -/
theorem exists_last_ancestor (path : Path) :
    ∃ times last, path.ancestorAt? times = some last ∧ path.ancestorAt? (times + 1) = none ∧
      (last = ⟨""⟩ ∨ last.components = [.root]) := by
  induction count : path.components.length generalizing path with
  | zero =>
    cases up : path.parent? with
    | none => exact ⟨0, path, rfl, up, eq_of_parent?_eq_none up⟩
    | some parent =>
      obtain ⟨last, components⟩ := components_of_parent? up
      rw [components, List.length_append] at count
      cases count
  | succ count ih =>
    cases up : path.parent? with
    | none => exact ⟨0, path, rfl, up, eq_of_parent?_eq_none up⟩
    | some parent =>
      obtain ⟨_, components⟩ := components_of_parent? up
      rw [components, List.length_append] at count
      obtain ⟨times, last, reached, ended, top⟩ := ih parent (Nat.succ.inj count)
      refine ⟨times + 1, last, ?_, ?_, top⟩
      · rw [ancestorAt?_succ, up]
        exact reached
      · rw [ancestorAt?_succ, up]
        exact ended

/-! ## Directories spelled from the root -/

/-- How the system spells the directory at a location. -/
def ofLocation (place : List String) : Path := (Path.mk "/").extend place

/-- One name more in a location is one name joined to its path. -/
theorem ofLocation_concat (place : List String) (name : String) :
    ofLocation (place ++ [name]) = (ofLocation place).join ⟨name⟩ := extend_concat ..

private theorem ofLocation_ne_empty (named : names.all isName = true) : (ofLocation names).text ≠ "" :=
  text_extend_ne_empty (by decide) named

/-- Nothing stands behind the last component of a path that is spelled from the root. -/
theorem trimmed_ofLocation (named : names.all isName = true) :
    (ofLocation names).trimmed = ofLocation names := by
  cases names using List.reverseRecOn with
  | nil => decide
  | append_singleton place name =>
    rw [List.all_append, Bool.and_eq_true, List.all_cons, Bool.and_eq_true] at named
    rw [ofLocation_concat, trimmed_join (ofLocation_ne_empty named.1) named.2.1]

/-- The parent of a place is the location it lies in. -/
theorem parent?_ofLocation_join (placed : names.all isName = true) (named : isName name = true) :
    ((ofLocation names).join ⟨name⟩).parent? = some (ofLocation names) := by
  rw [parent?_join (ofLocation_ne_empty placed) named, trimmed_ofLocation placed]

end Harvest.Path
