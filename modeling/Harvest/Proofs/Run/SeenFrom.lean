import Harvest.Proofs.Command.History
import Harvest.Proofs.Source.Scan

/-!
# Absolute paths do not see the working directory

A file system knows the directory that relative paths start from. Absolute paths start from the root, so
what they lead to, what is read there and what is written there is the same as seen from any directory.
A run whose paths are absolute says the same and gives the same result, and leaves the same entries.
-/

namespace Harvest

variable {fs : FileSystem} {place : Location} {path : Path}

/-! ## Reading -/

namespace FileSystem

/-- Parts of a path lead to the same location. -/
theorem follow_seenFrom (fs : FileSystem) (place start : Location) (parts : List String) :
    (fs.seenFrom place).follow start parts = fs.follow start parts := by
  induction parts generalizing start with
  | nil => rfl
  | cons part parts ih =>
    rw [follow, follow, entry?_seenFrom]
    cases fs.entry? start with
    | none => rfl
    | some entry =>
      cases entry with
      | file content => rfl
      | directory => exact ih (step start part)

/-- An absolute path leads to the same location. -/
theorem locate_seenFrom (absolute : path.isAbsolute = true) :
    (fs.seenFrom place).locate path = fs.locate path := by
  unfold locate
  rw [absolute, if_pos rfl, follow_seenFrom]
  rfl

/-- An absolute path finds the same entry. -/
theorem entryAt_seenFrom (absolute : path.isAbsolute = true) :
    (fs.seenFrom place).entryAt path = fs.entryAt path := by
  unfold entryAt
  rw [locate_seenFrom absolute]
  rfl

/-- An absolute path leads to a directory as it does from elsewhere. -/
theorem isDirectory_seenFrom (absolute : path.isAbsolute = true) :
    (fs.seenFrom place).isDirectory path = fs.isDirectory path := by
  unfold isDirectory
  rw [entryAt_seenFrom absolute]

/-- The same text is read at an absolute path. -/
theorem readText_seenFrom (absolute : path.isAbsolute = true) :
    (fs.seenFrom place).readText path = fs.readText path := by
  unfold readText readBytes
  rw [locate_seenFrom absolute]
  rfl

/-- The files below an absolute path are the same. -/
theorem filesIn_seenFrom (absolute : path.isAbsolute = true) (listing : Listing) :
    (fs.seenFrom place).filesIn listing path = fs.filesIn listing path := by
  unfold filesIn
  rw [locate_seenFrom absolute]
  rfl

/-! ## Writing -/

/-- An insertion does not move the directory that relative paths start from. -/
theorem insert?_seenFrom (fs : FileSystem) (place location : Location) (entry : Entry) :
    (fs.seenFrom place).insert? location entry =
      (fs.insert? location entry).map (·.seenFrom place) := by
  unfold insert?
  by_cases allowed :
      fs.canHold location = true ∧ (entry = .directory ∨ fs.entry? location ≠ some .directory)
  · rw [dif_pos allowed]
    exact dif_pos allowed
  · rw [dif_neg allowed]
    exact dif_neg allowed

/-- A text is written, or not, as it is from elsewhere. -/
theorem writeText_seenFrom (absolute : path.isAbsolute = true) (text : String) :
    (fs.seenFrom place).writeText path text = (·.seenFrom place) <$> fs.writeText path text := by
  unfold writeText writeBytes
  rw [locate_seenFrom absolute]
  cases fs.locate path with
  | error cause => rfl
  | ok location =>
    have refused : (fs.seenFrom place).refusals.writing location = fs.refusals.writing location := rfl
    simp only [bind, Except.bind, entry?_seenFrom, insert?_seenFrom, refused]
    cases fs.refusals.writing location <;> cases fs.insert? location (.file text.toUTF8) <;>
      rcases fs.entry? location with _ | _ | _ <;>
      rcases fs.entry? location.dropLast with _ | _ | _ <;> rfl

end FileSystem

/-! ## Projects and catalogs -/

namespace Source

variable {root : Path}

/-- The files of an absolute root are found alike. -/
theorem scan_seenFrom (fs : FileSystem) (place : Location) (absolute : root.isAbsolute = true)
    (ignore : List String) :
    scan (fs.seenFrom place) root ignore = scan fs root ignore := by
  unfold scan scanBy
  rw [FileSystem.isDirectory_seenFrom absolute, FileSystem.filesIn_seenFrom absolute]
  rfl

/-- The files of an absolute root are read alike. -/
theorem load_seenFrom (parser : TypeScript.ModuleParser) (fs : FileSystem) (place : Location)
    (absolute : root.isAbsolute = true) (ignore : List String) :
    load parser (fs.seenFrom place) root ignore = load parser fs root ignore := by
  have scanned := scan_seenFrom fs place absolute ignore
  cases found : scan fs root ignore with
  | error error => rw [load_of_scan_error found, load_of_scan_error (scanned.trans found)]
  | ok paths =>
    rw [load_of_scan found, load_of_scan (scanned.trans found), loadFrom_eq_mapM, loadFrom_eq_mapM]
    congr 1
    apply Traversal.mapM_congr
    rintro ⟨path, index⟩ numbered
    have inside : path.isAbsolute = true := by
      obtain ⟨_, _, _, _, _, _, _, rfl⟩ := scan_eq_ok.mp found
      obtain ⟨names, _, rfl⟩ := List.mem_map.mp (List.fst_mem_of_mem_zipIdx numbered)
      exact Path.isAbsolute_extend absolute names
    simp only [loadFile, FileSystem.readText_seenFrom inside]

end Source

/-- A catalog is written, or not, as it is from elsewhere. -/
theorem Catalog.write_seenFrom (fs : FileSystem) (place : Location)
    (absolute : path.isAbsolute = true) (text : String) :
    Catalog.write (fs.seenFrom place) path text =
      (fun written => (written.1, written.2.seenFrom place)) <$> Catalog.write fs path text := by
  have inside := Path.isAbsolute_join absolute Catalog.fileName
  unfold Catalog.write
  rw [FileSystem.isDirectory_seenFrom absolute]
  cases fs.isDirectory path with
  | false => rfl
  | true =>
    simp only [Bool.not_true, Bool.false_eq_true, if_false, FileSystem.writeText_seenFrom inside]
    cases fs.writeText (path.join Catalog.fileName) text <;> rfl

/-- **A run with absolute paths** ends alike from every directory. -/
theorem run_seenFrom (parser : TypeScript.ModuleParser) (fs : FileSystem) (place : Location)
    {options : Options} (project : options.projectDir.isAbsolute = true)
    (output : options.outputDir.isAbsolute = true) (extractor : Extractor) :
    run parser (fs.seenFrom place) options extractor =
      { run parser fs options extractor with
        files := (run parser fs options extractor).files.seenFrom place } := by
  have loads := Source.load_seenFrom parser fs place project options.ignore
  cases loaded : Source.load parser fs options.projectDir options.ignore with
  | error error =>
    rw [loaded] at loads
    simp only [run, loaded, loads]
  | ok set =>
    rw [loaded] at loads
    cases extracted : set.extract extractor with
    | error halt => simp only [run, loaded, loads, extracted]
    | ok messages =>
      have writes := Catalog.write_seenFrom fs place output
        (Run.catalogText options messages)
      cases written : Catalog.write fs options.outputDir (Run.catalogText options messages) with
      | error error =>
        rw [written] at writes
        simp only [run, loaded, loads, extracted, Run.finish, written, writes]
        rfl
      | ok stored =>
        rw [written] at writes
        simp only [run, loaded, loads, extracted, Run.finish, written, writes]
        rfl

end Harvest
