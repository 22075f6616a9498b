import Harvest.Proofs.FileSystem.Directory

/-!
# One insertion after another

A file system is fixed by what stands at its locations. So two insertions that leave the same entries
leave the same file system: a file that is put again changes nothing, and files that are put at
different locations may be put in either order.
-/

namespace Harvest.FileSystem

variable {fs changed : FileSystem} {location : Location} {entry : Entry}

/-! ## Equal file systems -/

/-- A file system is its entries, what it refuses and the directory that paths start from. -/
private theorem eq_of_entries {other : FileSystem} (sameEntries : fs.entries = other.entries)
    (sameRefusals : fs.refusals = other.refusals) (sameCurrent : fs.current = other.current) :
    fs = other := by
  cases fs
  cases other
  cases sameEntries
  cases sameRefusals
  cases sameCurrent
  rfl

private theorem nodup_entries (fs : FileSystem) : fs.entries.Nodup := by
  refine fs.ordered.imp fun before same => ?_
  rw [same] at before
  exact List.lt_irrefl _ before

/-- The order of the entries leaves no choice once it is known what stands where. -/
theorem eq_of_lookup {other : FileSystem} (same : ∀ place, fs.entry? place = other.entry? place)
    (sameRefusals : fs.refusals = other.refusals) (sameCurrent : fs.current = other.current) :
    fs = other := by
  refine eq_of_entries ?_ sameRefusals sameCurrent
  have members : ∀ placed, placed ∈ fs.entries ↔ placed ∈ other.entries := by
    rintro ⟨place, standing⟩
    by_cases atRoot : place = []
    · exact ⟨fun member => absurd atRoot (fs.named _ member).1,
        fun member => absurd atRoot (other.named _ member).1⟩
    · rw [mem_entries_iff atRoot, mem_entries_iff atRoot, same]
  refine ((List.perm_ext_iff_of_nodup fs.nodup_entries other.nodup_entries).mpr members).eq_of_pairwise
    ?_ fs.ordered other.ordered
  intro earlier later _ _ before behind
  exact absurd behind (List.lt_asymm before)

/-! ## Putting the same file again -/

/-- A file that was put can be put again, and nothing changes. -/
theorem insert?_again {content : ByteArray}
    (inserted : fs.insert? location (.file content) = some changed) :
    changed.insert? location (.file content) = some changed := by
  have there : changed.entry? location = some (.file content) := by
    rw [entry?_insert? inserted, if_pos rfl]
  have holds : changed.canHold location = true :=
    canHold_of_kept (canHold_of_insert? inserted) fun _ => directory_insert? inserted
  have free : changed.entry? location ≠ some .directory := by
    rw [there]
    exact fun directory => by cases directory
  obtain ⟨again, reinserted⟩ := exists_insert? holds free (.file content)
  rw [reinserted]
  have same := inserted_of_insert? reinserted
  refine congrArg some (eq_of_lookup (fun place => ?_) same.refusals same.current)
  rw [entry?_insert? reinserted]
  split
  · rename_i here
    rw [here, there]
  · rfl

/-- What was written can be written again, and nothing changes. -/
theorem writeText_again {path : Path} {text : String} (written : fs.writeText path text = .ok changed) :
    changed.writeText path text = .ok changed := by
  obtain ⟨location, located, permitted, inserted⟩ := writeBytes_eq_ok written
  have stillPermitted : changed.refusals.writing location = none := by
    rw [(inserted_of_insert? inserted).refusals]
    exact permitted
  have there : changed.entry? location = some (.file text.toUTF8) := by
    rw [entry?_insert? inserted, if_pos rfl]
  have outer : changed.entry? location.dropLast = some .directory := by
    have held := canHold_of_insert? (insert?_again inserted)
    simp only [canHold, Bool.and_eq_true, beq_iff_eq] at held
    exact held.2
  unfold writeText writeBytes
  rw [locate_insert? inserted located]
  simp only [bind, Except.bind, there, outer, stillPermitted, insert?_again inserted]
  rfl

/-! ## Putting two files -/

/-- Files that are put at different locations may be put in either order. -/
theorem insert?_comm {one other both : FileSystem} {here there : Location} {content content' : ByteArray}
    (apart : here ≠ there) (first : fs.insert? here (.file content) = some one)
    (second : one.insert? there (.file content') = some both)
    (swapped : fs.insert? there (.file content') = some other) :
    other.insert? here (.file content) = some both := by
  have holds : other.canHold here = true :=
    canHold_of_kept (canHold_of_insert? first) fun _ => directory_insert? swapped
  have free : other.entry? here ≠ some .directory := by
    rw [entry?_insert? swapped, if_neg apart]
    exact not_directory_of_insert? first
  obtain ⟨both', inserted⟩ := exists_insert? holds free (.file content)
  rw [inserted]
  have first' := inserted_of_insert? first
  have second' := inserted_of_insert? second
  have swapped' := inserted_of_insert? swapped
  have inserted' := inserted_of_insert? inserted
  refine congrArg some (eq_of_lookup (fun place => ?_) ?_ ?_)
  · rw [entry?_insert? inserted, entry?_insert? swapped, entry?_insert? second, entry?_insert? first]
    by_cases atHere : place = here
    · rw [if_pos atHere, if_neg (atHere ▸ apart), if_pos atHere]
    · rw [if_neg atHere, if_neg atHere]
  · rw [inserted'.refusals, swapped'.refusals, second'.refusals, first'.refusals]
  · rw [inserted'.current, swapped'.current, second'.current, first'.current]

end Harvest.FileSystem
