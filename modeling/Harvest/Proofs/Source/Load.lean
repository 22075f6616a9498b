import Harvest.Run
import Harvest.Proofs.Traversal

/-!
# Loading and extracting as traversals

Both stages of a run that go over files do so one file after the other. Here each is said to be a
traversal with one task for a file: `loadFile` for a numbered path, `extract` for a loaded file under
its name below the root. What a stage gives then follows from the laws of traversals.
-/

namespace Harvest

open Traversal

namespace Source

open TypeScript (ModuleParser)

variable {parser : ModuleParser} {fs : FileSystem} {index : Nat} {path root : Path} {ignore : List String}

/-- A file loads if it can be read and its text, without a mark in front, parses. -/
theorem loadFile_eq_ok_iff {file : SourceFile} : loadFile parser fs index path = .ok file ↔
    ∃ text parsed, fs.readText path = .ok text ∧
      parser (isDeclaration path) (Text.dropByteOrderMark text.toList) = .ok parsed ∧
      file = ⟨index, path, Text.dropByteOrderMark text.toList, parsed, isDeclaration path⟩ := by
  unfold loadFile
  cases fs.readText path with
  | error cause => simp
  | ok text =>
    simp only [parse]
    cases read : parser (isDeclaration path) (Text.dropByteOrderMark text.toList) with
    | error message => simp [read]
    | ok parsed => simp [read, eq_comm (a := file)]

/-- A loaded file knows where it stands and whether it only declares. -/
theorem loadFile_eq_ok {file : SourceFile} (loaded : loadFile parser fs index path = .ok file) :
    file.index = index ∧ file.path = path ∧ file.isDeclaration = isDeclaration path := by
  obtain ⟨text, parsed, _, _, rfl⟩ := loadFile_eq_ok_iff.mp loaded
  exact ⟨rfl, rfl, rfl⟩

/-- A file fails to load if it cannot be read or its text does not parse. -/
theorem loadFile_eq_error {error : LoadError} : loadFile parser fs index path = .error error ↔
    (∃ cause, fs.readText path = .error cause ∧ error = .unreadable path cause) ∨
    ∃ text message, fs.readText path = .ok text ∧
      parser (isDeclaration path) (Text.dropByteOrderMark text.toList) = .error message ∧
      error = .malformed path message := by
  unfold loadFile
  cases fs.readText path with
  | error cause => simp [eq_comm (a := error)]
  | ok text =>
    simp only [parse]
    cases read : parser (isDeclaration path) (Text.dropByteOrderMark text.toList) with
    | error message => simp [read, eq_comm (a := error)]
    | ok parsed => simp [read]

/-- Files are loaded one after the other, each with its number. -/
theorem loadFrom_eq_mapM (parser : ModuleParser) (fs : FileSystem) (index : Nat) (paths : List Path) :
    loadFrom parser fs index paths =
      (paths.zipIdx index).mapM fun numbered => loadFile parser fs numbered.2 numbered.1 := by
  induction paths generalizing index with
  | nil => rfl
  | cons path paths ih =>
    rw [loadFrom, List.zipIdx_cons, List.mapM_cons, ih]

/-- Behind a scan a project loads if its files do. -/
theorem load_of_scan {paths : List Path} (scanned : scan fs root ignore = .ok paths) :
    load parser fs root ignore = SourceSet.mk root <$> loadFrom parser fs 0 paths := by
  rw [load, scanned]
  show (loadFrom parser fs 0 paths >>= fun files => pure (SourceSet.mk root files)) = _
  cases loadFrom parser fs 0 paths <;> rfl

/-- A project that cannot be scanned does not load. -/
theorem load_of_scan_error {error : LoadError} (failed : scan fs root ignore = .error error) :
    load parser fs root ignore = .error error := by
  rw [load, failed]
  rfl

/-- A project loads exactly when it can be scanned and each of its files loads. -/
theorem load_eq_ok {set : SourceSet} :
    load parser fs root ignore = .ok set ↔ set.root = root ∧ ∃ paths, scan fs root ignore = .ok paths ∧
      List.Forall₂ (fun numbered file => loadFile parser fs numbered.2 numbered.1 = .ok file)
        paths.zipIdx set.files := by
  constructor
  · intro loaded
    cases scanned : scan fs root ignore with
    | error error =>
      rw [load_of_scan_error scanned] at loaded
      cases loaded
    | ok paths =>
      rw [load_of_scan scanned, loadFrom_eq_mapM] at loaded
      obtain ⟨files, read, rfl⟩ := map_eq_ok.mp loaded
      exact ⟨rfl, paths, rfl, mapM_eq_ok.mp read⟩
  · rintro ⟨rfl, paths, scanned, paired⟩
    rw [load_of_scan scanned, loadFrom_eq_mapM, mapM_eq_ok.mpr paired]
    rfl

end Source

namespace SourceSet

variable {set : SourceSet} {extractor : Extractor}

/-- Files are searched one after the other, and their messages put behind each other. -/
theorem extractFrom_eq_mapM (set : SourceSet) (extractor : Extractor) (files : List SourceFile) :
    set.extractFrom extractor files =
      List.flatten <$> files.mapM fun file => extractor.extract file (set.nameOf file) := by
  induction files with
  | nil => rfl
  | cons file files ih =>
    rw [extractFrom, ih, List.mapM_cons]
    cases extractor.extract file (set.nameOf file) with
    | error halt => rfl
    | ok first =>
      cases files.mapM fun file => extractor.extract file (set.nameOf file) with
      | error halt => rfl
      | ok lists => rfl

/-- The messages of a project are those of its searched files, in the order of the files. -/
theorem extract_eq_ok {messages : List Message} :
    set.extract extractor = .ok messages ↔
      ∃ lists, List.Forall₂ (fun file list => extractor.extract file (set.nameOf file) = .ok list)
        set.searched lists ∧ messages = lists.flatten := by
  unfold extract
  rw [extractFrom_eq_mapM, map_eq_ok]
  constructor
  · rintro ⟨lists, traversed, rfl⟩
    exact ⟨lists, mapM_eq_ok.mp traversed, rfl⟩
  · rintro ⟨lists, paired, rfl⟩
    exact ⟨lists, mapM_eq_ok.mpr paired, rfl⟩

end SourceSet

end Harvest
