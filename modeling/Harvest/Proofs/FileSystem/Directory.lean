import Harvest.Proofs.FileSystem.Change
import Harvest.Proofs.Path.Components

/-!
# What lies in a directory

Every location with an entry lies in directories all the way up to the root. So the path that continues a
directory's own path by names leads to what stands there, and a file can be put into a directory unless
there is a directory of its name.
-/

namespace Harvest.FileSystem

variable {fs : FileSystem} {location : Location} {entry : Entry} {names : List String} {path : Path}

/-! ## Entries -/

/-- The entries are what stands at the locations below the root. -/
theorem mem_entries_iff (filled : location ≠ []) :
    (location, entry) ∈ fs.entries ↔ fs.entry? location = some entry := by
  refine ⟨fs.entry?_of_mem, fun found => ?_⟩
  unfold entry? at found
  rw [if_neg filled] at found
  exact mem_of_find? found

/-- The root is a directory. -/
theorem entry?_nil (fs : FileSystem) : fs.entry? [] = some .directory := rfl

/-- Whatever has an entry has a name that a path can spell at each step. -/
theorem isName_of_entry? (found : fs.entry? location = some entry) : location.all isName = true := by
  by_cases filled : location = []
  · rw [filled]
    rfl
  · exact (fs.named _ ((mem_entries_iff filled).mpr found)).2

/-- What has an entry lies in a directory. -/
theorem directory_of_entry?_concat {name : String}
    (found : fs.entry? (location ++ [name]) = some entry) : fs.entry? location = some .directory := by
  have member := (mem_entries_iff (List.append_ne_nil_of_right_ne_nil _ (List.cons_ne_nil _ _))).mpr found
  rcases fs.nested _ member with atRoot | inside
  · rw [List.dropLast_concat] at atRoot
    rw [atRoot, entry?_nil]
  · rw [List.dropLast_concat] at inside
    exact fs.entry?_of_mem inside

/-- What lies below an entry shows that the entry is a directory. -/
theorem directory_of_entry?_append (filled : names ≠ [])
    (found : fs.entry? (location ++ names) = some entry) : fs.entry? location = some .directory := by
  induction names using List.reverseRecOn generalizing entry with
  | nil => exact absurd rfl filled
  | append_singleton names name ih =>
    rw [← List.append_assoc] at found
    have outer := directory_of_entry?_concat found
    cases names with
    | nil => rwa [List.append_nil] at outer
    | cons first rest => exact ih (List.cons_ne_nil _ _) outer

/-! ## Following a path that is continued by names -/

/-- The empty path leads nowhere. -/
theorem text_ne_empty_of_locate (located : fs.locate path = .ok location) : path.text ≠ "" := by
  intro empty
  unfold locate at located
  rw [if_pos (String.isEmpty_iff.mpr empty)] at located
  cases located

/-- A path that is continued by names leads to what stands there. -/
theorem locate_extend (located : fs.locate path = .ok location)
    (found : fs.entry? (location ++ names) = some entry) :
    fs.locate (path.extend names) = .ok (location ++ names) := by
  -- Every shorter list of names leads to a directory, so the last name can be followed.
  induction names using List.reverseRecOn generalizing entry with
  | nil =>
    rw [List.append_nil]
    exact located
  | append_singleton names name ih =>
    rw [← List.append_assoc] at found
    have outer := directory_of_entry?_concat found
    have named := isName_of_entry? found
    rw [List.all_append, Bool.and_eq_true, List.all_cons, Bool.and_eq_true] at named
    rw [Path.extend_concat, locate_join named.2.1 (ih outer) outer, List.append_assoc]

/-- A path finds what stands where it leads. -/
theorem entryAt_of_locate (located : fs.locate path = .ok location)
    (found : fs.entry? location = some entry) : fs.entryAt path = .ok entry := by
  unfold entryAt
  rw [located]
  simp only [bind, Except.bind, found]
  rfl

/-! ## Writing into a directory -/

/-- A file can be put into a directory unless there is a directory of its name. -/
theorem exists_insert?_concat {name : String} (standing : fs.entry? location = some .directory)
    (named : isName name = true) (free : fs.entry? (location ++ [name]) ≠ some .directory)
    (content : ByteArray) :
    ∃ changed, fs.insert? (location ++ [name]) (.file content) = some changed := by
  have holds : fs.canHold (location ++ [name]) = true := by
    simp [canHold, List.all_append, isName_of_entry? standing, named, standing]
  exact exists_insert? holds free _

/-- No file can be written at a location, for that cause: a directory stands there, or the system refuses
to write there. -/
inductive Blocked (fs : FileSystem) (location : Location) : AccessError → Prop where
  | directory (taken : fs.entry? location = some .directory) : Blocked fs location .isADirectory
  | refused {cause : AccessError} (free : fs.entry? location ≠ some .directory)
    (denied : fs.refusals.writing location = some cause) : Blocked fs location cause

section

variable {name : String} (located : fs.locate path = .ok location)
  (standing : fs.entry? location = some .directory) (named : isName name = true)
include located standing named

private theorem writeText_join_of_free (free : fs.entry? (location ++ [name]) ≠ some .directory)
    (text : String) : ∃ changed, fs.writeText (path.join ⟨name⟩) text =
      (fs.refusals.writing (location ++ [name])).elim (.ok changed) .error := by
  obtain ⟨changed, inserted⟩ := exists_insert?_concat standing named free text.toUTF8
  refine ⟨changed, ?_⟩
  unfold writeText writeBytes
  rw [locate_join named located standing]
  cases there : fs.entry? (location ++ [name]) with
  | none =>
    simp only [bind, Except.bind, List.dropLast_concat, standing, there, inserted]
    cases fs.refusals.writing (location ++ [name]) <;> rfl
  | some entry =>
    cases entry with
    | directory => exact absurd there free
    | file content =>
      simp only [bind, Except.bind, List.dropLast_concat, standing, there, inserted]
      cases fs.refusals.writing (location ++ [name]) <;> rfl

/-- No file is written where it is blocked. -/
theorem writeText_join_of_blocked {cause : AccessError} (blocked : fs.Blocked (location ++ [name]) cause)
    (text : String) : fs.writeText (path.join ⟨name⟩) text = .error cause := by
  cases blocked with
  | directory taken =>
    unfold writeText writeBytes
    rw [locate_join named located standing]
    simp only [bind, Except.bind, taken]
    rfl
  | refused free denied =>
    obtain ⟨changed, written⟩ := writeText_join_of_free located standing named free text
    rw [written, denied]
    rfl

/-- A file is written into a directory unless it is blocked there. -/
theorem exists_writeText_join (text : String) :
    (∃ cause, fs.Blocked (location ++ [name]) cause) ∨
      ∃ changed, fs.writeText (path.join ⟨name⟩) text = .ok changed := by
  by_cases taken : fs.entry? (location ++ [name]) = some .directory
  · exact .inl ⟨_, .directory taken⟩
  · obtain ⟨changed, written⟩ := writeText_join_of_free located standing named taken text
    cases denied : fs.refusals.writing (location ++ [name]) with
    | some cause => exact .inl ⟨cause, .refused taken denied⟩
    | none =>
      rw [denied] at written
      exact .inr ⟨changed, written⟩

end

end Harvest.FileSystem
