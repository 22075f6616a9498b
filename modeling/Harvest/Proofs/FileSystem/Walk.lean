import Mathlib.Data.List.Sort
import Mathlib.Data.String.Basic
import Harvest.FileSystem.Walk
import Harvest.Proofs.FileSystem.Directory

/-!
# Walks through directories

All that a walk knows of an order is that of the names in one directory. From it follows the order of all
that is listed: the names on the way to each entry, compared one after the other, increase strictly at
every depth (`pairwise_walk`). So each entry is listed once, and in whatever order the system lists the
names in its directories, the walk is the same (`walk_eq_of_lists`).
-/

namespace Harvest

/-- The system lists the names in each directory of the file system, each once, in any order. -/
def Listing.Lists (listing : Listing) (fs : FileSystem) : Prop :=
  ∀ location, (listing location).Perm (fs.names location)

namespace FileSystem

variable {fs : FileSystem} {listing other : Listing} {location : Location} {names : List String}
  {depth : Nat}

/-! ## The names in a directory -/

private theorem name_of_entry {entry : Location × Entry} {name : String} :
    (if entry.1.dropLast = location then entry.1.getLast? else none) = some name ↔
      entry.1 = location ++ [name] := by
  constructor
  · intro given
    split at given
    · next outer =>
      obtain ⟨front, ending⟩ := List.getLast?_eq_some_iff.mp given
      rw [ending, List.dropLast_concat] at outer
      rw [ending, outer]
    · cases given
  · intro placed
    rw [placed, List.dropLast_concat, if_pos rfl, List.getLast?_concat]

/-- The names in a directory are those that lead to an entry. -/
theorem mem_names {name : String} :
    name ∈ fs.names location ↔ ∃ entry, fs.entry? (location ++ [name]) = some entry := by
  have filled : location ++ [name] ≠ [] := List.append_ne_nil_of_right_ne_nil _ (List.cons_ne_nil _ _)
  rw [FileSystem.names, List.mem_filterMap]
  constructor
  · rintro ⟨⟨place, entry⟩, member, given⟩
    cases name_of_entry.mp given
    exact ⟨entry, fs.entry?_of_mem member⟩
  · rintro ⟨entry, found⟩
    exact ⟨_, (mem_entries_iff filled).mpr found, name_of_entry.mpr rfl⟩

private theorem nodup_names (fs : FileSystem) (location : Location) : (fs.names location).Nodup := by
  rw [FileSystem.names, List.Nodup, List.pairwise_filterMap]
  refine fs.ordered.imp fun {placed placed'} before name given name' given' same => ?_
  rw [name_of_entry.mp given, name_of_entry.mp given', same] at before
  exact List.lt_irrefl _ before

/-- A file system lists its own names. -/
theorem lists_names (fs : FileSystem) : fs.names.Lists fs := fun _ => .refl _

private theorem mem_listing (lists : listing.Lists fs) {name : String} :
    name ∈ listing location ↔ ∃ entry, fs.entry? (location ++ [name]) = some entry :=
  (lists location).mem_iff.trans mem_names

/-! ## Siblings in order -/

private theorem inOrder_eq_insertionSort (names : List String) :
    inOrder names = names.insertionSort (· ≤ ·) := by
  have inserted (name : String) (names : List String) :
      insertName name names = names.orderedInsert (· ≤ ·) name := by
    induction names with
    | nil => rfl
    | cons first rest ih => rw [insertName, List.orderedInsert_cons, ih]
  induction names with
  | nil => rfl
  | cons name names ih => rw [inOrder, List.insertionSort_cons, inserted, ih]

/-- Names are put in order whatever their order was. -/
theorem inOrder_eq_of_perm {names others : List String} (perm : names.Perm others) :
    inOrder names = inOrder others := by
  rw [inOrder_eq_insertionSort, inOrder_eq_insertionSort]
  have same := ((List.perm_insertionSort (· ≤ ·) names).trans perm).trans
    (List.perm_insertionSort (· ≤ ·) others).symm
  exact same.eq_of_pairwise (fun _ _ _ _ below above => le_antisymm below above)
    (List.pairwise_insertionSort _ _) (List.pairwise_insertionSort _ _)

private theorem mem_inOrder {name : String} {names : List String} : name ∈ inOrder names ↔ name ∈ names := by
  rw [inOrder_eq_insertionSort]
  exact List.mem_insertionSort _

private theorem pairwise_inOrder (lists : listing.Lists fs) (location : Location) :
    (inOrder (listing location)).Pairwise (· < ·) := by
  rw [inOrder_eq_insertionSort]
  have once : ((listing location).insertionSort (· ≤ ·)).Nodup :=
    (List.perm_insertionSort _ _).nodup_iff.mpr ((lists location).nodup_iff.mpr (fs.nodup_names location))
  exact (List.pairwise_insertionSort (· ≤ ·) _).imp₂ (fun _ _ below apart => lt_of_le_of_ne below apart) once

/-! ## The walk -/

/-- **Step lemma of the walk.** If what is below each of the siblings is in order, so is what is below
all of them: everything below a sibling starts with its name. -/
private theorem pairwise_siblings {siblings : List String} {below : String → List Location}
    (ordered : siblings.Pairwise (· < ·)) (inside : ∀ name ∈ siblings, (below name).Pairwise (· < ·))
    (filled : ∀ name ∈ siblings, [] ∉ below name) :
    (siblings.flatMap fun name => [name] :: (below name).map (name :: ·)).Pairwise (· < ·) := by
  have starts (name : String) : ∀ names ∈ [name] :: (below name).map (name :: ·),
      ∃ rest, names = name :: rest := by
    rintro names (_ | ⟨_, member⟩)
    · exact ⟨[], rfl⟩
    · obtain ⟨rest, _, rfl⟩ := List.mem_map.mp member
      exact ⟨rest, rfl⟩
  refine List.pairwise_flatMap.mpr ⟨fun name member => List.pairwise_cons.mpr ⟨?_, ?_⟩, ?_⟩
  · intro names inner
    obtain ⟨rest, there, rfl⟩ := List.mem_map.mp inner
    obtain ⟨first, more, rfl⟩ := List.exists_cons_of_ne_nil fun (nothing : rest = []) =>
      filled name member (nothing ▸ there)
    exact List.cons_lt_cons_iff.mpr (.inr ⟨rfl, List.nil_lt_cons first more⟩)
  · refine List.pairwise_map.mpr ((inside name member).imp fun before => ?_)
    exact List.cons_lt_cons_iff.mpr (.inr ⟨rfl, before⟩)
  · refine ordered.imp fun {name name'} before names member names' member' => ?_
    obtain ⟨rest, rfl⟩ := starts name names member
    obtain ⟨rest', rfl⟩ := starts name' names' member'
    exact List.cons_lt_cons_iff.mpr (.inl before)

private theorem nil_not_mem_walk (listing : Listing) (depth : Nat) (location : Location) :
    [] ∉ walk listing depth location := by
  cases depth with
  | zero => exact List.not_mem_nil
  | succ depth => simp [walk]

/-- **Run lemma of the walk.** The order of the names in each directory makes everything that is listed
increase strictly, name by name. -/
theorem pairwise_walk (lists : listing.Lists fs) (depth : Nat) (location : Location) :
    (walk listing depth location).Pairwise (· < ·) := by
  induction depth generalizing location with
  | zero => exact .nil
  | succ depth ih =>
    exact pairwise_siblings (pairwise_inOrder lists location) (fun name _ => ih (location ++ [name]))
      fun name _ => nil_not_mem_walk listing depth (location ++ [name])

/-- A walk lists every entry down to its depth, and nothing else. -/
theorem mem_walk (lists : listing.Lists fs) :
    names ∈ walk listing depth location ↔
      names ≠ [] ∧ names.length ≤ depth ∧ ∃ entry, fs.entry? (location ++ names) = some entry := by
  induction depth generalizing location names with
  | zero =>
    refine ⟨nofun, fun ⟨filled, short, _⟩ => ?_⟩
    exact absurd (List.length_eq_zero_iff.mp (Nat.le_zero.mp short)) filled
  | succ depth ih =>
    rw [walk, List.mem_flatMap]
    constructor
    · rintro ⟨name, sibling, _ | ⟨_, inner⟩⟩
      · exact ⟨List.cons_ne_nil _ _, Nat.succ_le_succ (Nat.zero_le depth),
          (mem_listing lists).mp (mem_inOrder.mp sibling)⟩
      · obtain ⟨rest, below, rfl⟩ := List.mem_map.mp inner
        obtain ⟨_, short, entry, found⟩ := ih.mp below
        rw [List.append_assoc] at found
        exact ⟨List.cons_ne_nil _ _, Nat.succ_le_succ short, entry, found⟩
    · rintro ⟨filled, short, entry, found⟩
      obtain ⟨name, rest, rfl⟩ := List.exists_cons_of_ne_nil filled
      have regrouped : location ++ name :: rest = location ++ [name] ++ rest := by
        rw [List.append_assoc, List.singleton_append]
      rw [regrouped] at found
      by_cases last : rest = []
      · rw [last, List.append_nil] at found
        refine ⟨name, mem_inOrder.mpr ((mem_listing lists).mpr ⟨entry, found⟩), ?_⟩
        rw [last]
        exact List.mem_cons_self
      · have outer := directory_of_entry?_append last found
        refine ⟨name, mem_inOrder.mpr ((mem_listing lists).mpr ⟨_, outer⟩), List.mem_cons_of_mem _ ?_⟩
        exact List.mem_map_of_mem (ih.mpr ⟨last, Nat.le_of_succ_le_succ short, entry, found⟩)

/-- The order in which the system lists the names in its directories does not matter to a walk. -/
theorem walk_eq_of_lists (lists : listing.Lists fs) (lists' : other.Lists fs) (depth : Nat)
    (location : Location) : walk listing depth location = walk other depth location := by
  induction depth generalizing location with
  | zero => rfl
  | succ depth ih =>
    have siblings := inOrder_eq_of_perm ((lists location).trans (lists' location).symm)
    rw [walk, walk, siblings]
    simp only [ih]

/-! ## The files of a walk -/

private theorem length_le_height {entry : Entry} (found : fs.entry? location = some entry) :
    location.length ≤ fs.height := by
  by_cases filled : location = []
  · rw [filled]
    exact Nat.zero_le _
  have member := (mem_entries_iff filled).mpr found
  unfold height
  generalize fs.entries = entries at member
  induction entries with
  | nil => cases member
  | cons first rest ih =>
    rw [List.foldr_cons]
    rcases List.mem_cons.mp member with rfl | later
    · exact Nat.le_max_left _ _
    · exact Nat.le_trans (ih later) (Nat.le_max_right _ _)

private theorem isFile_iff : fs.isFile location = true ↔ ∃ content, fs.entry? location = some (.file content) := by
  unfold isFile
  cases found : fs.entry? location with
  | none => simp
  | some entry => cases entry <;> simp

/-- The files below a directory are listed by the names that lead to them. -/
theorem mem_filesBelow (lists : listing.Lists fs) (standing : fs.entry? location = some .directory) :
    names ∈ fs.filesBelow listing location ↔
      ∃ content, fs.entry? (location ++ names) = some (.file content) := by
  rw [filesBelow, List.mem_filter, isFile_iff, mem_walk lists]
  refine ⟨fun listed => listed.2, fun ⟨content, found⟩ => ⟨⟨?_, ?_, _, found⟩, content, found⟩⟩
  · rintro rfl
    rw [List.append_nil, standing] at found
    cases found
  · refine Nat.le_trans ?_ (length_le_height found)
    rw [List.length_append]
    exact Nat.le_add_left _ _

/-- The files below a location increase strictly, name by name. -/
theorem pairwise_filesBelow (lists : listing.Lists fs) (location : Location) :
    (fs.filesBelow listing location).Pairwise (· < ·) :=
  (pairwise_walk lists _ location).filter _

/-- The files below the directory that a path leads to are that path continued by names. -/
theorem filesIn_of_locate {path : Path} (located : fs.locate path = .ok location) :
    fs.filesIn listing path = (fs.filesBelow listing location).map path.extend := by
  rw [filesIn, located]
  rfl

/-- However the system lists the names in its directories, the same files are listed. -/
theorem filesIn_eq_of_lists (lists : listing.Lists fs) (path : Path) :
    fs.filesIn listing path = fs.filesIn fs.names path := by
  unfold filesIn filesBelow
  simp only [walk_eq_of_lists lists fs.lists_names]

end FileSystem

end Harvest
