import Harvest.Proofs.FileSystem.Change
import Harvest.Proofs.FileSystem.Locate
import Harvest.Proofs.Message.Visit
import Harvest.Proofs.Source.Load

/-!
# All or nothing

A run that fails, at whatever stage and after however many files, leaves the file system as it found
it. A run that succeeds has put one file into it, the catalog in the output directory; that catalog
lists the messages of every scanned file that is not a declaration file, in the order of the scan.
-/

namespace Harvest

open Traversal
open TypeScript (ModuleParser)

variable {parser : ModuleParser} {fs changed : FileSystem} {options : Options} {extractor : Extractor} {summary : Summary}

/-- The messages of one scanned file: it is loaded under its number and searched under its name below
the root. -/
def FileGives (parser : ModuleParser) (fs : FileSystem) (root : Path) (extractor : Extractor)
    (numbered : Path × Nat) (messages : List Message) : Prop :=
  ∃ file, Source.loadFile parser fs numbered.2 numbered.1 = .ok file ∧
    extractor.extract file (Path.relativeName root numbered.1) = .ok messages

/-- What a successful run has done. `paths` are the scanned files, `lists` the messages of those that
are not declaration files, and `directory` is where the output directory lies. -/
structure Completed (parser : ModuleParser) (fs : FileSystem) (options : Options) (extractor : Extractor)
    (summary : Summary) (changed : FileSystem) (paths : List Path) (lists : List (List Message))
    (directory : Location) : Prop where
  scanned : Source.scan fs options.projectDir options.ignore = .ok paths
  searched : List.Forall₂ (FileGives parser fs options.projectDir extractor)
    (paths.zipIdx.filter fun numbered => !Source.isDeclaration numbered.1) lists
  messages : summary.messages = lists.flatten
  fileCount : summary.fileCount = (paths.filter fun path => !Source.isDeclaration path).length
  catalogPath : summary.catalogPath = options.outputDir.join Catalog.fileName
  located : fs.locate options.outputDir = .ok directory
  isDirectory : fs.entry? directory = some .directory
  catalog : changed.entry? (directory ++ [Catalog.fileName.text]) =
    some (.file (Catalog.document options.sourceLang lists.flatten).render.toUTF8)
  readBack : changed.readText summary.catalogPath =
    .ok (Catalog.document options.sourceLang lists.flatten).render
  elsewhere : ∀ location, location ≠ directory ++ [Catalog.fileName.text] →
    changed.entry? location = fs.entry? location
  refusals : changed.refusals = fs.refusals
  current : changed.current = fs.current

/-! ## The stages of a run -/

/-- Only the last stage of a run has another file system to give. -/
theorem files_of_result_error {halt : Halt}
    (failed : (run parser fs options extractor).result = .error halt) :
    (run parser fs options extractor).files = fs := by
  revert failed
  unfold run
  split
  · exact fun _ => rfl
  · simp only
    split
    · exact fun _ => rfl
    · split
      · exact fun _ => rfl
      · exact nofun

/-- A run that succeeds has loaded the project, extracted its messages and written their catalog. -/
theorem stages_of_result_ok (done : (run parser fs options extractor).result = .ok summary) :
    ∃ set messages, Source.load parser fs options.projectDir options.ignore = .ok set ∧
      set.extract extractor = .ok messages ∧
      Run.finish fs options set messages = .ok (summary, (run parser fs options extractor).files) := by
  revert done
  unfold run
  split
  · exact nofun
  · rename_i set loaded
    simp only
    split
    · exact nofun
    · rename_i messages extracted
      split
      · exact nofun
      · rename_i finished changed written
        intro done
        cases done
        exact ⟨set, messages, loaded, extracted, written⟩

/-- A run that succeeds has written the catalog of the messages that it gives. -/
theorem exists_write_of_result_ok (done : (run parser fs options extractor).result = .ok summary) :
    ∃ set, Source.load parser fs options.projectDir options.ignore = .ok set ∧
      set.extract extractor = .ok summary.messages ∧ summary.fileCount = set.searched.length ∧
      Catalog.write fs options.outputDir (Run.catalogText options summary.messages) =
        .ok (summary.catalogPath, (run parser fs options extractor).files) := by
  obtain ⟨set, messages, loaded, extracted, finished⟩ := stages_of_result_ok done
  generalize (run parser fs options extractor).files = after at finished ⊢
  unfold Run.finish at finished
  split at finished
  · cases finished
  · rename_i written
    cases finished
    exact ⟨set, loaded, extracted, rfl, written⟩

/-- A catalog that is written was written into a directory. -/
theorem Catalog.write_eq_ok {directory path : Path} {text : String}
    (written : Catalog.write fs directory text = .ok (path, changed)) :
    fs.isDirectory directory = true ∧ path = directory.join Catalog.fileName ∧
      fs.writeText path text = .ok changed := by
  unfold Catalog.write at written
  split at written
  · cases written
  · rename_i present
    simp only at written
    split at written
    · rename_i stored
      cases written
      rw [Bool.not_eq_true', Bool.not_eq_false] at present
      exact ⟨present, rfl, stored⟩
    · cases written

/-- A catalog that is written is a file that is inserted into the directory. -/
theorem Catalog.write_eq_insert? {directory path : Path} {text : String}
    (written : Catalog.write fs directory text = .ok (path, changed)) :
    ∃ location, fs.locate directory = .ok location ∧ fs.entry? location = some .directory ∧
      fs.refusals.writing (location ++ [Catalog.fileName.text]) = none ∧
      fs.insert? (location ++ [Catalog.fileName.text]) (.file text.toUTF8) = some changed := by
  obtain ⟨present, rfl, stored⟩ := Catalog.write_eq_ok written
  obtain ⟨location, located, standing⟩ := FileSystem.isDirectory_iff.mp present
  obtain ⟨place, leads, permitted, inserted⟩ := FileSystem.writeBytes_eq_ok stored
  have inside : fs.locate (directory.join Catalog.fileName) =
      .ok (location ++ [Catalog.fileName.text]) :=
    FileSystem.locate_join (by decide) located standing
  cases leads.symm.trans inside
  exact ⟨location, located, standing, permitted, inserted⟩

/-- The file that a written catalog is, and that nothing else has changed. -/
theorem Catalog.write_frame {directory path : Path} {text : String}
    (written : Catalog.write fs directory text = .ok (path, changed)) :
    ∃ location, fs.locate directory = .ok location ∧ fs.entry? location = some .directory ∧
      changed.entry? (location ++ [Catalog.fileName.text]) = some (.file text.toUTF8) ∧
      (∀ other, other ≠ location ++ [Catalog.fileName.text] →
        changed.entry? other = fs.entry? other) ∧
      changed.refusals = fs.refusals ∧ changed.current = fs.current := by
  obtain ⟨location, located, standing, _, inserted⟩ := Catalog.write_eq_insert? written
  have lookup := FileSystem.entry?_insert? inserted
  obtain ⟨_, _, _, refusals, current⟩ := FileSystem.inserted_of_insert? inserted
  refine ⟨location, located, standing, ?_, ?_, refusals, current⟩
  · rw [lookup, if_pos rfl]
  · intro other apart
    rw [lookup, if_neg apart]

/-! ## The files that are searched -/

/-- The searched files are the scanned ones without the declaration files. -/
theorem searched_of_load {set : SourceSet} {paths : List Path}
    (loaded : List.Forall₂ (fun numbered file => Source.loadFile parser fs numbered.2 numbered.1 = .ok file)
      paths.zipIdx set.files) :
    List.Forall₂ (fun numbered file => Source.loadFile parser fs numbered.2 numbered.1 = .ok file)
      (paths.zipIdx.filter fun numbered => !Source.isDeclaration numbered.1) set.searched := by
  apply List.rel_filter _ loaded
  intro numbered file read
  simp only [(Source.loadFile_eq_ok read).2.2]

/-- Numbering files does not change which are kept. -/
theorem map_fst_filter_zipIdx (keeps : Path → Bool) (paths : List Path) :
    (paths.zipIdx.filter fun numbered => keeps numbered.1).map Prod.fst = paths.filter keeps := by
  rw [← Function.comp_def, ← List.filter_map, List.zipIdx_map_fst]

/-- Numbering files does not change how many are kept. -/
theorem length_filter_zipIdx (keeps : Path → Bool) (paths : List Path) :
    (paths.zipIdx.filter fun numbered => keeps numbered.1).length = (paths.filter keeps).length := by
  rw [← map_fst_filter_zipIdx, List.length_map]

/-- **All or nothing.** For any parser, file system, options, classifier and identifier: a run that fails
or breaks down leaves the file system as it was; a run that succeeds has written the catalog of all
messages and changed nothing else. -/
theorem run_all_or_nothing (parser : ModuleParser) (fs : FileSystem) (options : Options)
    (extractor : Extractor) :
    (∀ halt, (run parser fs options extractor).result = .error halt →
      (run parser fs options extractor).files = fs) ∧
    (∀ summary, (run parser fs options extractor).result = .ok summary →
      ∃ paths lists directory, Completed parser fs options extractor summary
        (run parser fs options extractor).files paths lists directory) := by
  refine ⟨fun halt failed => files_of_result_error failed, fun summary done => ?_⟩
  obtain ⟨set, messages, loaded, extracted, finished⟩ := stages_of_result_ok done
  obtain ⟨root, paths, scanned, read⟩ := Source.load_eq_ok.mp loaded
  obtain ⟨lists, given, rfl⟩ := SourceSet.extract_eq_ok.mp extracted
  have searched := searched_of_load read
  unfold Run.finish at finished
  split at finished
  · cases finished
  · rename_i catalogPath changed written
    cases finished
    obtain ⟨directory, located, standing, catalog, elsewhere, refusals, current⟩ :=
      Catalog.write_frame written
    obtain ⟨_, rfl, stored⟩ := Catalog.write_eq_ok written
    refine ⟨paths, lists, directory, scanned, ?_, rfl, ?_, rfl, located, standing,
      catalog, FileSystem.readText_of_writeText stored, elsewhere, refusals, current⟩
    · refine (forall₂_trans searched given).imp ?_
      rintro numbered list ⟨file, opened, gave⟩
      refine ⟨file, opened, ?_⟩
      rw [SourceSet.nameOf, root, (Source.loadFile_eq_ok opened).2.1] at gave
      exact gave
    · rw [← length_filter_zipIdx, searched.length_eq]

/-- A project of two files, of which the second has the given text, beside an older catalog. -/
def sampleProject (second : String) : FileSystem :=
  .ofEntries [
    (["out"], .directory),
    (["out", "messages.xlf"], .file "<xliff/>".toUTF8),
    (["src"], .directory),
    (["src", "a.ts"], .file "i18n('A', 'note')".toUTF8),
    (["src", "b.ts"], .file second.toUTF8)]

def sampleOptions : Options where
  projectDir := ⟨"/src"⟩
  outputDir := ⟨"/out/"⟩
  sourceLang := "en"
  ignore := []

/-- A second file with a call that has no text keeps the older catalog; one with a text replaces
it. -/
theorem sampleProject_all_or_nothing :
    (∃ halt,
      (run TypeScript.parser (sampleProject "i18n()") sampleOptions (.named ["i18n"])).result = .error halt ∧
      (run TypeScript.parser (sampleProject "i18n()") sampleOptions (.named ["i18n"])).files =
        sampleProject "i18n()") ∧
    (∃ summary paths lists directory,
      (run TypeScript.parser (sampleProject "i18n('B')") sampleOptions (.named ["i18n"])).result =
        .ok summary ∧
      Completed TypeScript.parser (sampleProject "i18n('B')") sampleOptions (.named ["i18n"]) summary
        (run TypeScript.parser (sampleProject "i18n('B')") sampleOptions (.named ["i18n"])).files
        paths lists directory) := by
  have broken : (run TypeScript.parser (sampleProject "i18n()") sampleOptions
      (.named ["i18n"])).result.isOk = false := by
    decide +kernel
  have whole : (run TypeScript.parser (sampleProject "i18n('B')") sampleOptions
      (.named ["i18n"])).result.isOk = true := by
    decide +kernel
  constructor
  · cases failed : (run TypeScript.parser (sampleProject "i18n()") sampleOptions (.named ["i18n"])).result with
    | error halt => exact ⟨halt, rfl, (run_all_or_nothing _ _ _ _).1 halt failed⟩
    | ok summary =>
      rw [failed] at broken
      cases broken
  · cases done : (run TypeScript.parser (sampleProject "i18n('B')") sampleOptions (.named ["i18n"])).result with
    | error halt =>
      rw [done] at whole
      cases whole
    | ok summary =>
      obtain ⟨paths, lists, directory, completed⟩ := (run_all_or_nothing _ _ _ _).2 summary done
      exact ⟨summary, paths, lists, directory, rfl, completed⟩

end Harvest
