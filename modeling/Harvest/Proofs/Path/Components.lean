import Harvest.Proofs.FileSystem.Locate
import Mathlib.Data.List.Infix

/-!
# Paths continued by names

A walk spells the path of a file by continuing the path of the root, name by name. The components of
such a path are those of the root and then the names, however the root is spelled: with or without a
slash at its end, with dots or with repeated slashes. So the path as seen from the root is the names
again, and these names put behind the root are the path again.
-/

namespace Harvest.Path

/-- A path continued by names, one after the other. -/
def extend (base : Path) (names : List String) : Path :=
  names.foldl (fun base name => base.join ⟨name⟩) base

variable {base continuation : Path} {names : List String} {name : String}

/-- Extending by one name more joins that name last. -/
theorem extend_concat (base : Path) (names : List String) (name : String) :
    base.extend (names ++ [name]) = (base.extend names).join ⟨name⟩ :=
  List.foldl_concat _ _ _ _

/-! ## Parts and texts -/

private theorem joinSlash_splitSlash (text : List Char) : joinSlash (splitSlash text) = text := by
  induction text with
  | nil => rfl
  | cons c rest ih =>
    obtain ⟨part, parts, split⟩ := List.exists_cons_of_ne_nil (splitSlash_ne_nil rest)
    rw [split] at ih
    rw [splitSlash, split]
    by_cases slash : c = '/'
    · rw [if_pos (beq_iff_eq.mpr slash), slash, ← ih]
      rfl
    · rw [if_neg (mt beq_iff_eq.mp slash), ← ih]
      cases parts <;> rfl

/-- The text of parts with slashes between them. -/
def ofParts (parts : List String) : Path := ⟨String.ofList (joinSlash (parts.map String.toList))⟩

/-- A path is its parts with slashes between them. -/
theorem ofParts_parts (path : Path) : ofParts path.parts = path := by
  unfold ofParts parts
  rw [List.map_map]
  have ids : String.toList ∘ String.ofList = id := funext fun _ => String.toList_ofList
  rw [ids, List.map_id, joinSlash_splitSlash, String.ofList_toList]

private theorem slash_not_mem_of_mem_splitSlash {text part : List Char} (member : part ∈ splitSlash text) :
    '/' ∉ part := by
  induction text generalizing part with
  | nil =>
    rw [splitSlash, List.mem_singleton] at member
    simp [member]
  | cons c rest ih =>
    obtain ⟨first, others, split⟩ := List.exists_cons_of_ne_nil (splitSlash_ne_nil rest)
    rw [split] at ih
    obtain ⟨inFirst, inOthers⟩ := List.forall_mem_cons.mp fun part member => @ih part member
    rw [splitSlash, split] at member
    by_cases slash : c = '/'
    · rw [if_pos (beq_iff_eq.mpr slash)] at member
      obtain rfl | member := List.mem_cons.mp member
      · simp
      · exact ih member
    · rw [if_neg (mt beq_iff_eq.mp slash)] at member
      obtain rfl | member := List.mem_cons.mp member
      · exact mt List.mem_cons.mp (not_or.mpr ⟨Ne.symm slash, inFirst⟩)
      · exact inOthers part member

/-- No part of a path has a slash in it. -/
theorem slash_not_mem_of_mem_parts {path : Path} {part : String} (member : part ∈ path.parts) :
    '/' ∉ part.toList := by
  obtain ⟨chars, split, rfl⟩ := List.mem_map.mp member
  rw [String.toList_ofList]
  exact slash_not_mem_of_mem_splitSlash split

/-- Parts without slashes are those of the text that they make. -/
theorem parts_ofParts {parts : List String} (plain : ∀ part ∈ parts, '/' ∉ part.toList)
    (filled : parts ≠ []) : (ofParts parts).parts = parts := by
  induction parts with
  | nil => exact absurd rfl filled
  | cons part others ih =>
    obtain ⟨first, more⟩ := List.forall_mem_cons.mp plain
    cases others with
    | nil =>
      show (splitSlash (String.ofList part.toList).toList).map String.ofList = [part]
      rw [String.toList_ofList, splitSlash_of_not_mem first, List.map_singleton, String.ofList_toList]
    | cons next rest =>
      have text : (ofParts (part :: next :: rest)).text.toList =
          part.toList ++ '/' :: (ofParts (next :: rest)).text.toList := by
        simp only [ofParts, String.toList_ofList]
        rfl
      have behind := ih more (List.cons_ne_nil _ _)
      unfold Path.parts at behind ⊢
      rw [text, splitSlash_append, splitSlash_of_not_mem first, List.map_append, behind,
        List.map_singleton, String.ofList_toList]
      rfl

/-! ## Components -/

/-- The component in front that no part behind it can give. -/
def lead (absolute : Bool) (parts : List String) : List Component :=
  if absolute then [.root] else if parts.head? = some "." then [.current] else []

/-- The components of a path are its lead and what its parts stand for. -/
theorem components_eq (path : Path) :
    path.components =
      lead path.isAbsolute path.parts ++ path.parts.filterMap innerComponent? := by
  unfold components lead
  cases path.isAbsolute with
  | true => rfl
  | false =>
    simp only [Bool.false_eq_true, if_false]
    split
    · rename_i rest split
      rw [split, List.head?_cons, if_pos rfl]
      rfl
    · rename_i notDot
      have plain : path.parts.head? ≠ some "." := by
        intro first
        obtain ⟨rest, split⟩ := List.head?_eq_some_iff.mp first
        exact notDot rest split
      rw [if_neg plain, List.nil_append]

/-- Every path has a part, if only the empty one. -/
theorem parts_ne_nil (path : Path) : path.parts ≠ [] := by
  unfold parts
  rw [ne_eq, List.map_eq_nil_iff]
  exact splitSlash_ne_nil _

private theorem parts_ne_singleton_empty (filled : base.text ≠ "") : base.parts ≠ [""] := by
  intro single
  have spelled := ofParts_parts base
  rw [single] at spelled
  exact filled (congrArg Path.text spelled.symm)

/-- Something stands before the slash at the end of a path. -/
theorem front_ne_nil {front : List String} (filled : base.text ≠ "")
    (split : base.parts = front ∨ base.parts = front ++ [""]) : front ≠ [] := by
  rintro rfl
  rcases split with plain | slashed
  · exact parts_ne_nil base plain
  · exact parts_ne_singleton_empty filled slashed

/-- A relative continuation adds its components. Dots and repeated slashes in it do not count. -/
theorem components_join (filled : base.text ≠ "") (relative : continuation.isAbsolute = false) :
    (base.join continuation).components =
      base.components ++ continuation.parts.filterMap innerComponent? := by
  obtain ⟨sameStart, front, joined, split⟩ := parts_join_of_relative filled relative
  have frontFilled := front_ne_nil filled split
  have sameHead : (front ++ continuation.parts).head? = base.parts.head? := by
    obtain ⟨first, rest, rfl⟩ := List.exists_cons_of_ne_nil frontFilled
    rcases split with plain | slashed
    · rw [plain]
      rfl
    · rw [slashed]
      rfl
  have sameInner : base.parts.filterMap innerComponent? = front.filterMap innerComponent? := by
    rcases split with plain | slashed
    · rw [plain]
    · rw [slashed, List.filterMap_append]
      exact List.append_nil _
  rw [components_eq, components_eq base, joined, sameStart, sameInner, List.filterMap_append]
  unfold lead
  rw [sameHead, List.append_assoc]

private theorem innerComponent?_of_isName (named : isName name = true) :
    innerComponent? name = some (.name name) := by
  simp only [isName, Bool.and_eq_true, bne_iff_ne, ne_eq] at named
  simp only [innerComponent?, beq_iff_eq, named.1.1.1, named.1.1.2, named.1.2, Bool.or_eq_true,
    or_self, if_false]

/-- A joined name is the last component. -/
theorem components_join_name (filled : base.text ≠ "") (named : isName name = true) :
    (base.join ⟨name⟩).components = base.components ++ [.name name] := by
  rw [components_join filled (isAbsolute_of_isName named), parts_of_isName named,
    List.filterMap_cons_some (innerComponent?_of_isName named), List.filterMap_nil]

/-- A name joined to the empty path is the name alone. -/
theorem join_of_empty (named : isName name = true) : (Path.mk "").join ⟨name⟩ = ⟨name⟩ := by
  simp [join, isAbsolute_of_isName named]

/-- A name is its own only component. -/
theorem components_of_isName (named : isName name = true) : (Path.mk name).components = [.name name] := by
  have plain : name ≠ "." := by
    rintro rfl
    exact absurd named (by decide)
  rw [components_eq, isAbsolute_of_isName named, parts_of_isName named,
    List.filterMap_cons_some (innerComponent?_of_isName named)]
  simp [lead, plain]

/-- A path continued by a name ends in a slash and that name. -/
theorem text_join_name (filled : base.text ≠ "") (named : isName name = true) :
    ∃ front, (base.join ⟨name⟩).text.toList = front ++ '/' :: name.toList := by
  unfold join
  rw [isAbsolute_of_isName named]
  simp only [Bool.false_eq_true, if_false, Bool.or_eq_true, beq_iff_eq]
  by_cases ending : base.text.isEmpty = true ∨ base.text.toList.getLast? = some '/'
  · rw [if_pos ending]
    have slash := ending.resolve_left fun empty => filled (String.isEmpty_iff.mp empty)
    obtain ⟨front, chars⟩ := List.getLast?_eq_some_iff.mp slash
    refine ⟨front, ?_⟩
    rw [String.toList_append, chars, List.append_assoc]
    rfl
  · rw [if_neg ending]
    refine ⟨base.text.toList, ?_⟩
    rw [String.toList_append, String.toList_append, List.append_assoc]
    rfl

private theorem text_join_ne_empty (filled : base.text ≠ "") (named : isName name = true) :
    (base.join ⟨name⟩).text ≠ "" := by
  obtain ⟨front, chars⟩ := text_join_name filled named
  intro empty
  rw [empty] at chars
  exact List.append_ne_nil_of_right_ne_nil _ (List.cons_ne_nil _ _) chars.symm

/-- The components of a continued path are those of its base, then the names. -/
theorem components_extend (filled : base.text ≠ "") (named : names.all isName = true) :
    (base.extend names).components = base.components ++ names.map .name := by
  induction names generalizing base with
  | nil => exact (List.append_nil _).symm
  | cons name names ih =>
    rw [List.all_cons, Bool.and_eq_true] at named
    show ((base.join ⟨name⟩).extend names).components = _
    rw [ih (text_join_ne_empty filled named.1) named.2, components_join_name filled named.1,
      List.append_assoc]
    rfl

/-- Extending a path that is not empty gives no empty path. -/
theorem text_extend_ne_empty (filled : base.text ≠ "") (named : names.all isName = true) :
    (base.extend names).text ≠ "" := by
  induction names generalizing base with
  | nil => exact filled
  | cons name names ih =>
    rw [List.all_cons, Bool.and_eq_true] at named
    exact ih (text_join_ne_empty filled named.1) named.2

/-- What is joined to an absolute path is absolute. -/
theorem isAbsolute_join (absolute : base.isAbsolute = true) (continuation : Path) :
    (base.join continuation).isAbsolute = true := by
  have filled : base.text ≠ "" := by
    intro empty
    simp [isAbsolute, empty] at absolute
  unfold join
  split
  · assumption
  split
  · rw [isAbsolute_append filled]
    exact absolute
  · rw [String.append_assoc, isAbsolute_append filled]
    exact absolute

/-- What extends an absolute path is absolute. -/
theorem isAbsolute_extend (absolute : base.isAbsolute = true) (names : List String) :
    (base.extend names).isAbsolute = true := by
  induction names generalizing base with
  | nil => exact absolute
  | cons name names ih => exact ih (isAbsolute_join absolute ⟨name⟩)

/-- Different names lead to different paths. -/
theorem extend_injective (filled : base.text ≠ "") {others : List String}
    (named : names.all isName = true) (othersNamed : others.all isName = true)
    (same : base.extend names = base.extend others) : names = others := by
  have components := congrArg Path.components same
  rw [components_extend filled named, components_extend filled othersNamed,
    List.append_cancel_left_eq] at components
  exact List.map_injective_iff.mpr (fun _ _ => Component.name.inj) components

/-! ## Names as seen from the base -/

private theorem dropFront?_append (base rest : List Component) : dropFront? base (base ++ rest) = some rest := by
  induction base with
  | nil => rfl
  | cons first base ih =>
    rw [List.cons_append, dropFront?, if_pos (beq_self_eq_true first), ih]

private theorem joinSlash_eq_intercalate (parts : List (List Char)) :
    joinSlash parts = ['/'].intercalate parts := by
  induction parts with
  | nil => rfl
  | cons part parts ih =>
    cases parts with
    | nil => exact (List.intercalate_singleton).symm
    | cons next rest =>
      rw [List.intercalate_cons_of_ne_nil (List.cons_ne_nil _ _), ← ih]
      show part ++ '/' :: joinSlash (next :: rest) = _
      rw [List.append_assoc]
      rfl

private theorem joinNames_map_name (names : List String) :
    joinNames (names.map .name) = "/".intercalate names := by
  unfold joinNames
  rw [List.filterMap_map]
  show String.ofList (joinSlash (names.filterMap (some ∘ String.toList))) = _
  rw [List.filterMap_eq_map, joinSlash_eq_intercalate, ← String.toList_inj, String.toList_ofList,
    String.toList_intercalate]
  rfl

/-- As seen from its base, a continued path is its names with slashes between them. -/
theorem relativeName_extend (filled : base.text ≠ "") (named : names.all isName = true) :
    relativeName base (base.extend names) = "/".intercalate names := by
  rw [relativeName, below, components_extend filled named, dropFront?_append, Option.getD_some,
    joinNames_map_name]

/-- Names with slashes between them can be told apart again. -/
theorem parts_intercalate (named : names.all isName = true) (some : names ≠ []) :
    (Path.mk ("/".intercalate names)).parts = names := by
  induction names with
  | nil => exact absurd rfl some
  | cons first others ih =>
    rw [List.all_cons, Bool.and_eq_true] at named
    cases others with
    | nil => rw [String.intercalate_singleton, parts_of_isName named.1]
    | cons next rest =>
      rw [String.intercalate_cons_cons, parts_append_slash, parts_of_isName named.1,
        ih named.2 (List.cons_ne_nil next rest)]
      rfl

/-! ## Names behind the base -/

/-- A continuation is put behind the slash that ends a path. -/
theorem join_eq_append (relative : continuation.isAbsolute = false) :
    base.join continuation = ⟨(base.join ⟨""⟩).text ++ continuation.text⟩ := by
  unfold join
  rw [relative, show (Path.mk "").isAbsolute = false from rfl]
  simp only [Bool.false_eq_true, if_false]
  split <;> simp only [String.append_empty]

/-- A path that ends in a name gets a slash behind it. -/
theorem join_empty_of_name (filled : base.text ≠ "") (named : isName name = true) :
    (base.join ⟨name⟩).join ⟨""⟩ = ⟨(base.join ⟨name⟩).text ++ "/"⟩ := by
  obtain ⟨front, chars⟩ := text_join_name filled named
  have notEmpty := text_join_ne_empty filled named
  have notSlashed : (base.join ⟨name⟩).text.toList.getLast? ≠ some '/' := by
    simp only [isName, Bool.and_eq_true, bne_iff_ne, Bool.not_eq_true', List.contains_eq_mem,
      decide_eq_false_iff_not] at named
    have letters : name.toList ≠ [] := mt String.toList_eq_nil_iff.mp named.1.1.1
    rw [chars, List.getLast?_append_of_ne_nil _ (List.cons_ne_nil _ _),
      List.getLast?_cons_of_ne_nil letters]
    exact fun last => named.2 (List.mem_of_getLast? last)
  generalize base.join ⟨name⟩ = path at notEmpty notSlashed ⊢
  simp [join, isAbsolute, notEmpty, notSlashed]

/-- What starts with a name is no absolute path. -/
theorem isAbsolute_name_append (named : isName name = true) (rest : String) :
    (Path.mk (name ++ rest)).isAbsolute = false := by
  have filled : name ≠ "" := by
    rintro rfl
    exact absurd named (by decide)
  rw [isAbsolute_append filled]
  exact isAbsolute_of_isName named

/-- A name and what is continued behind it can be put behind a path together. -/
theorem join_join_name (filled : base.text ≠ "") (named : isName name = true) {rest : String}
    (relative : (Path.mk rest).isAbsolute = false) :
    (base.join ⟨name⟩).join ⟨rest⟩ = base.join ⟨name ++ "/" ++ rest⟩ := by
  rw [String.append_assoc, join_eq_append relative, join_empty_of_name filled named,
    join_eq_append (isAbsolute_name_append named _), join_eq_append (isAbsolute_of_isName named)]
  simp only [String.append_assoc]

/-- Names with slashes between them make a relative path. -/
theorem isAbsolute_intercalate (named : names.all isName = true) :
    (Path.mk ("/".intercalate names)).isAbsolute = false := by
  cases names with
  | nil => rfl
  | cons first others =>
    rw [List.all_cons, Bool.and_eq_true] at named
    cases others with
    | nil =>
      rw [String.intercalate_singleton]
      exact isAbsolute_of_isName named.1
    | cons next rest =>
      rw [String.intercalate_cons_cons, String.append_assoc]
      exact isAbsolute_name_append named.1 _

/-- Names that are joined first lead where they lead one after the other. -/
theorem join_intercalate (filled : base.text ≠ "") (named : names.all isName = true)
    (below : names ≠ []) : base.join ⟨"/".intercalate names⟩ = base.extend names := by
  induction names generalizing base with
  | nil => exact absurd rfl below
  | cons first others ih =>
    rw [List.all_cons, Bool.and_eq_true] at named
    cases others with
    | nil =>
      rw [String.intercalate_singleton]
      rfl
    | cons next rest =>
      rw [String.intercalate_cons_cons,
        ← join_join_name filled named.1 (isAbsolute_intercalate named.2),
        ih (text_join_ne_empty filled named.1) named.2 (List.cons_ne_nil next rest)]
      rfl

/-- Joined names are read as these names. -/
theorem components_intercalate (named : names.all isName = true) (below : names ≠ []) :
    (Path.mk ("/".intercalate names)).components = names.map .name := by
  have proper := List.all_eq_true.mp named
  have noDot : names.head? ≠ some "." := by
    intro dot
    exact absurd (proper "." (List.mem_of_head? dot)) (by decide)
  have each : names.filterMap innerComponent? = names.map .name := by
    rw [← List.filterMap_eq_map]
    exact List.filterMap_congr fun name member => innerComponent?_of_isName (proper name member)
  rw [components_eq, isAbsolute_intercalate named, parts_intercalate named below, each]
  simp [lead, noDot]

/-! ## Paths that start with others -/

/-- The parts of a relative path that count: those that are neither empty nor a dot. -/
def countedParts (path : Path) : List String := path.parts.filter fun part => part != "" && part != "."

/-- What a counted part stands for. -/
def countedComponent (part : String) : Component := if part = ".." then .parent else .name part

private theorem countedComponent_injective : Function.Injective countedComponent := by
  intro part other same
  unfold countedComponent at same
  split_ifs at same with first second
  · rw [first, second]
  · exact Component.name.inj same

private theorem filterMap_innerComponent? (path : Path) :
    path.parts.filterMap innerComponent? = path.countedParts.map countedComponent := by
  unfold countedParts
  rw [← List.filterMap_eq_map, ← List.filterMap_eq_filter, List.filterMap_filterMap]
  congr 1
  funext part
  unfold innerComponent? countedComponent
  by_cases idle : part = "" ∨ part = "."
  · rcases idle with rfl | rfl <;> rfl
  · obtain ⟨filled, notDot⟩ := not_or.mp idle
    simp only [beq_iff_eq, bne_iff_ne, ne_eq, Bool.or_eq_true, Bool.and_eq_true, filled, notDot,
      or_self, and_self, not_false_eq_true, if_false, Option.guard_pos, Option.bind_some,
      Function.comp_apply]
    split <;> rfl

private theorem map_countedComponent (named : names.all isName = true) :
    names.map countedComponent = names.map .name := by
  apply List.map_congr_left
  intro name member
  have proper := List.all_eq_true.mp named name member
  simp only [isName, Bool.and_eq_true, bne_iff_ne, ne_eq] at proper
  exact if_neg proper.1.2

/-- A path below a base starts with a relative continuation of that base exactly when its names start
with the counted parts of the continuation. -/
theorem startsWith_join (filled : base.text ≠ "") (relative : continuation.isAbsolute = false)
    (named : names.all isName = true) :
    (base.extend names).startsWith (base.join continuation) = true ↔
      continuation.countedParts <+: names := by
  rw [startsWith, List.isPrefixOf_iff_prefix, components_join filled relative,
    components_extend filled named, List.prefix_append_right_inj, filterMap_innerComponent?,
    ← map_countedComponent named, List.prefix_map_iff_of_injective countedComponent_injective]

/-! ## Endings -/

/-- An ending without a slash belongs to the last name of a path. -/
theorem suffix_extend_concat {ending : List Char} (plain : '/' ∉ ending) (filled : base.text ≠ "")
    (named : (names ++ [name]).all isName = true) :
    ending <:+ (base.extend (names ++ [name])).text.toList ↔ ending <:+ name.toList := by
  rw [List.all_append, Bool.and_eq_true, List.all_cons, Bool.and_eq_true] at named
  obtain ⟨front, chars⟩ := text_join_name (text_extend_ne_empty filled named.1) named.2.1
  rw [extend_concat, chars]
  constructor
  · intro ends
    rcases List.suffix_or_suffix_of_suffix ends (List.suffix_append front ('/' :: name.toList)) with
      short | long
    · rcases List.suffix_cons_iff.mp short with whole | inside
      · exact absurd (whole ▸ List.mem_cons_self) plain
      · exact inside
    · exact absurd (long.subset List.mem_cons_self) plain
  · intro ends
    exact (ends.trans (List.suffix_cons _ _)).trans (List.suffix_append _ _)

end Harvest.Path
