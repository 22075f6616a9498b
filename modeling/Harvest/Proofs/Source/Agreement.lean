import Harvest.Proofs.FileSystem.Insertion
import Harvest.Proofs.Source.Load
import Harvest.Proofs.Source.Scan

/-!
# What a project sees of a file system

A project is loaded from directories and from source files. File systems that have these in common and
refuse the same load every project alike: with the same files, or with the same error. So a file that is
no source file can come and change, inside of a project or elsewhere, and the project does not see it.
-/

namespace Harvest.Source

open Traversal

/-- Two file systems have their directories and their source files in common and refuse the same. -/
structure Agree (fs other : FileSystem) : Prop where
  current : other.current = fs.current
  refusals : other.refusals = fs.refusals
  directories : ∀ location,
    other.entry? location = some .directory ↔ fs.entry? location = some .directory
  sources : ∀ location name, location.getLast? = some name → ".ts".toList <:+ name.toList →
    other.entry? location = fs.entry? location

variable {parser : TypeScript.ModuleParser} {fs other : FileSystem} {path root : Path} {location : Location} {ignore : List String}

namespace Agree

/-! ## Paths -/

/-- Paths lead to the same locations. -/
theorem locate_iff (agree : Agree fs other) :
    other.locate path = .ok location ↔ fs.locate path = .ok location :=
  ⟨FileSystem.locate_of_kept (fun place => (agree.directories place).mp) agree.current.symm,
    FileSystem.locate_of_kept (fun place => (agree.directories place).mpr) agree.current⟩

/-- Paths lead to the same directories. -/
theorem isDirectory_eq (agree : Agree fs other) (path : Path) :
    other.isDirectory path = fs.isDirectory path := by
  rw [Bool.eq_iff_iff, FileSystem.isDirectory_iff, FileSystem.isDirectory_iff]
  simp only [agree.locate_iff, agree.directories]

/-- Files are blocked at the same locations. -/
theorem blocked_iff (agree : Agree fs other) {cause : AccessError} :
    other.Blocked location cause ↔ fs.Blocked location cause := by
  constructor
  · intro blocked
    cases blocked with
    | directory taken => exact .directory ((agree.directories location).mp taken)
    | refused free denied =>
      rw [agree.refusals] at denied
      exact .refused (fun taken => free ((agree.directories location).mpr taken)) denied
  · intro blocked
    cases blocked with
    | directory taken => exact .directory ((agree.directories location).mpr taken)
    | refused free denied =>
      rw [← agree.refusals] at denied
      exact .refused (fun taken => free ((agree.directories location).mp taken)) denied

/-! ## Scanning and loading -/

private theorem entry?_of_isSource (agree : Agree fs other) (location : Location) {names : List String}
    (source : ∃ name, names.getLast? = some name ∧ ".ts".toList <:+ name.toList) :
    other.entry? (location ++ names) = fs.entry? (location ++ names) := by
  obtain ⟨name, last, isSource⟩ := source
  refine agree.sources _ name ?_ isSource
  rw [List.getLast?_append, last, Option.some_or]

private theorem qualifies_iff (agree : Agree fs other) {names : List String} :
    Qualifies other root location ignore names ↔ Qualifies fs root location ignore names := by
  constructor
  · rintro ⟨isFile, isSource, kept⟩
    rw [agree.entry?_of_isSource location isSource] at isFile
    exact ⟨isFile, isSource, kept⟩
  · rintro ⟨isFile, isSource, kept⟩
    rw [← agree.entry?_of_isSource location isSource] at isFile
    exact ⟨isFile, isSource, kept⟩

private theorem lists (agree : Agree fs other) {found : List (List String)}
    (lists : Lists fs root location ignore found) : Lists other root location ignore found :=
  ⟨fun names => (lists.complete names).trans agree.qualifies_iff.symm, lists.increasing⟩

/-- A scan of either file system gives the same paths or the same error. -/
theorem scan_eq (agree : Agree fs other) (root : Path) (ignore : List String) :
    scan other root ignore = scan fs root ignore := by
  cases directory : fs.isDirectory root with
  | false =>
    rw [scan_of_not_isDirectory directory,
      scan_of_not_isDirectory ((agree.isDirectory_eq root).trans directory)]
  | true =>
    obtain ⟨location, located, standing⟩ := FileSystem.isDirectory_iff.mp directory
    have located' := agree.locate_iff.mpr located
    have standing' := (agree.directories location).mpr standing
    cases parsed : IgnoreRule.parseAll root ignore with
    | error error =>
      rw [scan_of_parseAll_error directory parsed,
        scan_of_parseAll_error ((agree.isDirectory_eq root).trans directory) parsed]
    | ok rules =>
      rw [scan_of_parseAll_ok located standing parsed, scan_of_parseAll_ok located' standing' parsed,
        (lists_filesOf located' standing' parsed).unique
          (agree.lists (lists_filesOf located standing parsed))]

/-- The files that a scan finds have the same texts in both. -/
theorem readText_eq (agree : Agree fs other) {paths : List Path}
    (scanned : scan fs root ignore = .ok paths) (member : path ∈ paths) :
    other.readText path = fs.readText path := by
  obtain ⟨location, found, located, _, _, lists, _, rfl⟩ := scan_eq_ok.mp scanned
  obtain ⟨names, listed, rfl⟩ := List.mem_map.mp member
  have qualifies := (lists.complete names).mp listed
  obtain ⟨content, there⟩ := qualifies.isFile
  have there' := (agree.entry?_of_isSource location qualifies.isSource).trans there
  have located' := agree.locate_iff.mpr located
  rw [FileSystem.readText_of_locate (FileSystem.locate_extend located' there'),
    FileSystem.readText_of_locate (FileSystem.locate_extend located there),
    FileSystem.contentAt_of_file there', FileSystem.contentAt_of_file there, agree.refusals]

/-- **A project sees directories and source files only.** -/
theorem load_eq (agree : Agree fs other) (parser : TypeScript.ModuleParser) (root : Path)
    (ignore : List String) : load parser other root ignore = load parser fs root ignore := by
  cases scanned : scan fs root ignore with
  | error error =>
    rw [load_of_scan_error scanned, load_of_scan_error ((agree.scan_eq root ignore).trans scanned)]
  | ok paths =>
    rw [load_of_scan scanned, load_of_scan ((agree.scan_eq root ignore).trans scanned),
      loadFrom_eq_mapM, loadFrom_eq_mapM]
    congr 1
    apply mapM_congr
    rintro ⟨path, index⟩ placed
    have sameText := agree.readText_eq scanned (List.fst_mem_of_mem_zipIdx placed)
    simp only [loadFile, sameText]

end Agree

/-- A file that is no source file takes no directory's place and no source file's. -/
theorem agree_insert? {changed : FileSystem} {directory : Location} {name : String}
    {content : ByteArray} (inserted : fs.insert? (directory ++ [name]) (.file content) = some changed)
    (unscanned : ¬ ".ts".toList <:+ name.toList) : Agree fs changed where
  current := (FileSystem.inserted_of_insert? inserted).current
  refusals := (FileSystem.inserted_of_insert? inserted).refusals
  directories := FileSystem.directory_insert?_iff inserted
  sources := by
    intro location last ends isSource
    rw [FileSystem.entry?_insert? inserted, if_neg]
    rintro rfl
    rw [List.getLast?_concat] at ends
    cases ends
    exact unscanned isSource

end Harvest.Source
