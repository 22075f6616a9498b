import Harvest.Proofs.Source.Load

/-!
# The imports of a project

The names that the files of a project import, in one table under the numbers of the files. The numbers
of loaded files are their places, so no file takes the row of another, and each finds in the table
what it imports itself.
-/

namespace Harvest

open TypeScript (ImportBinding)

/-- The imported names of files under the numbers of the files. A file that imports nothing has no
row. -/
structure ImportTable where
  row? : Nat → Option (List ImportBinding)

namespace ImportTable

/-- The table before the first file. -/
def empty : ImportTable := ⟨fun _ => none⟩

/-- The table with the row of one more file. -/
def register (table : ImportTable) (file : SourceFile) : ImportTable :=
  if file.imports.isEmpty then table
  else ⟨fun index => if index = file.index then some file.imports else table.row? index⟩

/-- The table of files in their order. -/
def ofFiles (files : List SourceFile) : ImportTable := files.foldl register empty

/-- The imported names of the file of that number. -/
def bindings (table : ImportTable) (index : Nat) : List ImportBinding := (table.row? index).getD []

/-- The name under which another module exports what the file of that number calls `name`. -/
def importedName? (table : ImportTable) (index : Nat) (name : String) : Option String :=
  ((table.bindings index).find? fun binding => binding.localName == name).map (·.importedName)

variable {table : ImportTable} {file : SourceFile} {files : List SourceFile} {index : Nat}

private theorem row?_register_of_ne (apart : index ≠ file.index) :
    (table.register file).row? index = table.row? index := by
  unfold register
  split
  · rfl
  · exact if_neg apart

private theorem row?_foldl_of_not_mem (absent : index ∉ files.map (·.index)) :
    (files.foldl register table).row? index = table.row? index := by
  induction files generalizing table with
  | nil => rfl
  | cons file files ih =>
    obtain ⟨apart, absentRest⟩ := List.ne_and_not_mem_of_not_mem_cons absent
    rw [List.foldl_cons, ih absentRest, row?_register_of_ne apart]

private theorem bindings_register (fresh : table.row? file.index = none) :
    (table.register file).bindings file.index = file.imports := by
  unfold register
  split
  · next nothing =>
    rw [bindings, fresh, List.isEmpty_iff.mp nothing]
    rfl
  · simp [bindings]

/-- A file finds its own imports under its number, whichever files were registered around it. -/
theorem bindings_foldl (distinct : (files.map (·.index)).Nodup)
    (fresh : ∀ other ∈ files, table.row? other.index = none) (mem : file ∈ files) :
    (files.foldl register table).bindings file.index = file.imports := by
  induction files generalizing table with
  | nil => cases mem
  | cons first files ih =>
    obtain ⟨apart, distinctRest⟩ := List.nodup_cons.mp distinct
    obtain ⟨freshFirst, freshRest⟩ := List.forall_mem_cons.mp fresh
    rw [List.foldl_cons]
    obtain rfl | memRest := List.mem_cons.mp mem
    · rw [bindings, row?_foldl_of_not_mem apart]
      exact bindings_register freshFirst
    · refine ih distinctRest (fun other memOther => ?_) memRest
      have different : other.index ≠ first.index := fun same =>
        apart (List.mem_map.mpr ⟨other, memOther, same⟩)
      rw [row?_register_of_ne different, freshRest other memOther]

/-- With the table of a project, a file resolves names as it does on its own. -/
theorem importedName?_ofFiles (numbered : files.map (·.index) = List.range files.length)
    (mem : file ∈ files) (name : String) :
    (ofFiles files).importedName? file.index name = file.importedName? name := by
  have distinct : (files.map (·.index)).Nodup := by
    rw [numbered]
    exact List.nodup_range
  rw [importedName?, ofFiles, bindings_foldl distinct (fun _ _ => rfl) mem, SourceFile.importedName?]

end ImportTable

namespace Source

variable {parser : TypeScript.ModuleParser} {fs : FileSystem}

/-- Files have the numbers under which they were loaded. -/
theorem index_of_loadFile {numbered : List (Path × Nat)} {files : List SourceFile}
    (read : List.Forall₂ (fun one file => loadFile parser fs one.2 one.1 = .ok file) numbered files) :
    files.map (·.index) = numbered.map Prod.snd := by
  induction read with
  | nil => rfl
  | cons first _ ih => rw [List.map_cons, List.map_cons, ih, (loadFile_eq_ok first).1]

/-- The numbers of loaded files are their places in the project. -/
theorem index_of_load {root : Path} {ignore : List String} {set : SourceSet}
    (loaded : load parser fs root ignore = .ok set) :
    set.files.map (·.index) = List.range set.files.length := by
  obtain ⟨_, paths, _, read⟩ := load_eq_ok.mp loaded
  rw [index_of_loadFile read, List.zipIdx_map_snd, List.range_eq_range', ← read.length_eq,
    List.length_zipIdx]

end Source

end Harvest
