import Harvest.Proofs.Parallel
import Harvest.Proofs.Run.AllOrNothing
import Harvest.Proofs.Source.ImportTable

/-!
# Runs whose files are seen to in any order

Files are loaded by tasks that end in any order, and so are messages extracted. Whether a stage
succeeds does not depend on its order. If it does, it gives what the loop over the files gives: the
files with their numbers and their imports, or the messages and the number of searched files. If not,
it reports the failure or the breakdown of one of the files that halt. So a run leaves the same file
system behind in every order.
-/

namespace Harvest

open Traversal
open TypeScript (ModuleParser)

/-! ## The two stages -/

/-- Loading: one task for each scanned path, whose place becomes the number of the file. -/
def Source.loading (parser : ModuleParser) (fs : FileSystem) (root : Path) (paths : List Path) :
    Stage (Path × Nat) SourceFile LoadError (SourceSet × ImportTable) where
  inputs := paths.zipIdx
  keeps _ := true
  task numbered := loadFile parser fs numbered.2 numbered.1
  gather files := (⟨root, files⟩, .ofFiles files)

/-- Extraction: one task for each file that is not a declaration file. It gives the messages and the
number of searched files. -/
def SourceSet.extraction (set : SourceSet) (extractor : Extractor) :
    Stage SourceFile (List Message) Halt (List Message × Nat) where
  inputs := set.files
  keeps file := !file.isDeclaration
  task file := extractor.extract file (set.nameOf file)
  gather lists := (lists.flatten, lists.length)

/-- What a run says, gives and leaves when its files are loaded and their extraction has ended. -/
def Run.conclude (fs : FileSystem) (options : Options) (set : SourceSet) :
    Except Halt (List Message × Nat) → Outcome
  | .error halt =>
    { log := said options [loadedLine options set], result := .error halt, files := fs }
  | .ok (messages, fileCount) =>
    let log := said options [loadedLine options set] ++
      said options (messages.map (messageLine options))
    match Catalog.write fs options.outputDir (catalogText options messages) with
    | .error error => { log, result := .error (.failure (.write error)), files := fs }
    | .ok (catalogPath, changed) =>
      { log, result := .ok { messages, fileCount, catalogPath }, files := changed }

/-- How a run can end when the tasks of its stages end in any order. -/
inductive RunsTo (parser : ModuleParser) (fs : FileSystem) (options : Options) (extractor : Extractor) :
    Outcome → Prop
  | unscanned {error : LoadError}
    (failed : Source.scan fs options.projectDir options.ignore = .error error) :
    RunsTo parser fs options extractor { log := [], result := .error (.failure (.load error)), files := fs }
  | unloaded {paths : List Path} {order : List Nat} {error : LoadError}
    (scanned : Source.scan fs options.projectDir options.ignore = .ok paths)
    (failed : (Source.loading parser fs options.projectDir paths).Ends order (.error error)) :
    RunsTo parser fs options extractor { log := [], result := .error (.failure (.load error)), files := fs }
  | loaded {paths : List Path} {order : List Nat} {set : SourceSet} {table : ImportTable}
    {extractionOrder : List Nat} {extracted : Except Halt (List Message × Nat)}
    (scanned : Source.scan fs options.projectDir options.ignore = .ok paths)
    (loads : (Source.loading parser fs options.projectDir paths).Ends order (.ok (set, table)))
    (extracts : (set.extraction extractor).Ends extractionOrder extracted) :
    RunsTo parser fs options extractor (Run.conclude fs options set extracted)

variable {parser : ModuleParser} {fs : FileSystem} {options : Options} {extractor : Extractor} {set : SourceSet}

/-! ## The stages one file after the other -/

/-- Loaded in its own order, the stage is the loop that loads the files. -/
theorem Source.loading_sequential {root : Path} {ignore : List String} {paths : List Path}
    (scanned : scan fs root ignore = .ok paths) :
    (loading parser fs root paths).sequential =
      (fun set => (set, ImportTable.ofFiles set.files)) <$> load parser fs root ignore := by
  have all : paths.zipIdx.filter (fun _ => true) = paths.zipIdx :=
    List.filter_eq_self.mpr fun _ _ => rfl
  rw [Stage.sequential, load_of_scan scanned]
  simp only [loading, all, ← loadFrom_eq_mapM]
  cases loadFrom parser fs 0 paths <;> rfl

/-- Searched in their own order, files give what the loop over them gives. -/
theorem SourceSet.extraction_sequential (set : SourceSet) (extractor : Extractor) :
    (set.extraction extractor).sequential =
      (fun messages => (messages, set.searched.length)) <$> set.extract extractor := by
  rw [Stage.sequential, extract, extractFrom_eq_mapM]
  show _ <$> set.searched.mapM (fun file => extractor.extract file (set.nameOf file)) = _
  cases traversed : set.searched.mapM fun file => extractor.extract file (set.nameOf file) with
  | error halt => rfl
  | ok lists =>
    have count := (mapM_eq_ok.mp traversed).length_eq
    simp only [extraction, Functor.map, Except.map, count]

/-- A run is its loading, its extraction and its conclusion. -/
theorem run_of_load_ok (loaded : Source.load parser fs options.projectDir options.ignore = .ok set) :
    run parser fs options extractor =
      Run.conclude fs options set (set.extraction extractor).sequential := by
  rw [set.extraction_sequential]
  simp only [run, loaded]
  cases set.extract extractor with
  | error halt => rfl
  | ok messages =>
    simp only [Run.finish, Run.conclude, Functor.map, Except.map]
    cases Catalog.write fs options.outputDir (Run.catalogText options messages) <;> rfl

/-- A run whose project does not load ends there. -/
theorem run_of_load_error {error : LoadError}
    (failed : Source.load parser fs options.projectDir options.ignore = .error error) :
    run parser fs options extractor = { log := [], result := .error (.failure (.load error)), files := fs } := by
  rw [run, failed]

/-! ## Any order -/

/-- A project that is loaded in some order is the one that is loaded file after file. -/
theorem Source.load_of_ends {root : Path} {ignore : List String} {paths : List Path}
    {order : List Nat} {table : ImportTable} (scanned : scan fs root ignore = .ok paths)
    (ends : (loading parser fs root paths).Ends order (.ok (set, table))) :
    load parser fs root ignore = .ok set ∧ table = .ofFiles set.files := by
  have sequential := (Stage.ends_ok_iff.mp ends).2
  rw [loading_sequential scanned] at sequential
  obtain ⟨loaded, done, equal⟩ := map_eq_ok.mp sequential
  cases equal
  exact ⟨done, rfl⟩

/-- The run with one file after the other is one of the runs in any order. -/
theorem runsTo_run (parser : ModuleParser) (fs : FileSystem) (options : Options) (extractor : Extractor) :
    RunsTo parser fs options extractor (run parser fs options extractor) := by
  cases scanned : Source.scan fs options.projectDir options.ignore with
  | error error =>
    rw [run_of_load_error (Source.load_of_scan_error scanned)]
    exact .unscanned scanned
  | ok paths =>
    have ends : (Source.loading parser fs options.projectDir paths).Ends _ _ :=
      Stage.ends_sequential (.refl _)
    rw [Source.loading_sequential scanned] at ends
    cases outcome : Source.load parser fs options.projectDir options.ignore with
    | error error =>
      rw [run_of_load_error outcome]
      rw [outcome] at ends
      exact .unloaded scanned ends
    | ok set =>
      rw [run_of_load_ok outcome]
      rw [outcome] at ends
      exact .loaded scanned ends (Stage.ends_sequential (.refl _))

/-- Runs in any order say the same, leave the same file system, and succeed alike. -/
theorem RunsTo.eq_run {outcome : Outcome} (runs : RunsTo parser fs options extractor outcome) :
    outcome.log = (run parser fs options extractor).log ∧
      outcome.files = (run parser fs options extractor).files ∧
      ∀ summary, outcome.result = .ok summary ↔ (run parser fs options extractor).result = .ok summary := by
  cases runs with
  | unscanned failed =>
    rw [run_of_load_error (Source.load_of_scan_error failed)]
    exact ⟨rfl, rfl, fun _ => Iff.rfl⟩
  | unloaded scanned failed =>
    obtain ⟨first, sequential⟩ := failed.sequential_eq_error
    rw [Source.loading_sequential scanned, map_eq_error] at sequential
    rw [run_of_load_error sequential]
    exact ⟨rfl, rfl, fun _ => ⟨nofun, nofun⟩⟩
  | @loaded paths order set table extractionOrder extracted scanned loads extracts =>
    rw [run_of_load_ok (Source.load_of_ends scanned loads).1]
    cases extracted with
    | ok value =>
      rw [(Stage.ends_ok_iff.mp extracts).2]
      exact ⟨rfl, rfl, fun _ => Iff.rfl⟩
    | error halt =>
      obtain ⟨first, sequential⟩ := extracts.sequential_eq_error
      rw [sequential]
      exact ⟨rfl, rfl, fun _ => ⟨nofun, nofun⟩⟩

/-- **No order matters.** Loading and extraction succeed in one order exactly when they do in every
order, and then give what the loops over the files give: files numbered by their places, imports that
each file finds as its own, messages and the number of searched files. A run in any order says what
the run file after file says, leaves the same file system and gives the same summary. -/
theorem run_schedule_independent (parser : ModuleParser) (fs : FileSystem) (options : Options)
    (extractor : Extractor) :
    (∀ paths, Source.scan fs options.projectDir options.ignore = .ok paths →
      (Source.loading parser fs options.projectDir paths).OrderFree ∧
      (Source.loading parser fs options.projectDir paths).sequential =
        (fun set => (set, ImportTable.ofFiles set.files)) <$>
          Source.load parser fs options.projectDir options.ignore ∧
      ∀ order set table, (Source.loading parser fs options.projectDir paths).Ends order (.ok (set, table)) →
        set.files.map (·.index) = List.range set.files.length ∧
        ∀ file ∈ set.files, ∀ name,
          table.importedName? file.index name = file.importedName? name) ∧
    (∀ set : SourceSet, (set.extraction extractor).OrderFree ∧
      (set.extraction extractor).sequential =
        (fun messages => (messages, set.searched.length)) <$> set.extract extractor) ∧
    RunsTo parser fs options extractor (run parser fs options extractor) ∧
    ∀ outcome, RunsTo parser fs options extractor outcome →
      outcome.log = (run parser fs options extractor).log ∧
      outcome.files = (run parser fs options extractor).files ∧
      ∀ summary, outcome.result = .ok summary ↔
        (run parser fs options extractor).result = .ok summary := by
  refine ⟨fun paths scanned => ⟨Stage.orderFree _, Source.loading_sequential scanned, ?_⟩,
    fun set => ⟨Stage.orderFree _, set.extraction_sequential extractor⟩,
    runsTo_run parser fs options extractor, fun outcome runs => runs.eq_run⟩
  intro order set table ends
  obtain ⟨loaded, rfl⟩ := Source.load_of_ends scanned ends
  have numbered := Source.index_of_load loaded
  exact ⟨numbered, fun file mem name => ImportTable.importedName?_ofFiles numbered mem name⟩

/-- The second of two files can be loaded before the first, and the project is the same. -/
theorem sampleProject_schedule_independent :
    ∃ paths set table, Source.scan (sampleProject "i18n('B')") ⟨"/src"⟩ [] = .ok paths ∧
      (Source.loading TypeScript.parser (sampleProject "i18n('B')") ⟨"/src"⟩ paths).Ends [1, 0] (.ok (set, table)) ∧
      Source.load TypeScript.parser (sampleProject "i18n('B')") ⟨"/src"⟩ [] = .ok set := by
  have two : (Source.scan (sampleProject "i18n('B')") ⟨"/src"⟩ []).toOption.map List.length =
      some 2 := by
    decide +kernel
  have loads : (Source.load TypeScript.parser (sampleProject "i18n('B')") ⟨"/src"⟩ []).isOk = true := by
    decide +kernel
  have laws := run_schedule_independent TypeScript.parser (sampleProject "i18n('B')") sampleOptions
    (.named ["i18n"])
  cases scanned : Source.scan (sampleProject "i18n('B')") ⟨"/src"⟩ [] with
  | error error =>
    rw [scanned] at two
    cases two
  | ok paths =>
    obtain ⟨free, sequential, _⟩ := laws.1 paths scanned
    have length : paths.length = 2 := by
      rw [scanned] at two
      exact Option.some.inj two
    obtain ⟨result, ends⟩ := (free.orders [1, 0]).mpr (by
      show [1, 0].Perm (List.range paths.zipIdx.length)
      rw [List.length_zipIdx, length]
      decide)
    cases loaded : Source.load TypeScript.parser (sampleProject "i18n('B')") ⟨"/src"⟩ [] with
    | error error =>
      rw [loaded] at loads
      cases loads
    | ok set =>
      rw [show Source.load TypeScript.parser (sampleProject "i18n('B')") sampleOptions.projectDir sampleOptions.ignore =
        .ok set from loaded] at sequential
      cases result with
      | error error =>
        obtain ⟨first, failed⟩ := ends.sequential_eq_error
        rw [sequential] at failed
        cases failed
      | ok value =>
        have agrees := free.agrees [1, 0] value ends
        rw [sequential] at agrees
        cases agrees
        exact ⟨paths, set, _, rfl, ends, rfl⟩

end Harvest
