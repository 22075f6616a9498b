import Harvest.Proofs.Run.Obstacle
import Harvest.Proofs.Source.Agreement

/-!
# Running again

A run writes into a file system that it also scans. What it writes is no source file, wherever the
output directory lies, so a second run scans the same files with the same texts. It finds the same
messages and writes the same catalog where the first one did, so that nothing changes any more.
-/

namespace Harvest

open Traversal
open TypeScript (ModuleParser)

variable {parser : ModuleParser} {fs changed : FileSystem} {options : Options} {extractor : Extractor} {summary : Summary}

/-- A project loads as before when a file has been put that is no source file. -/
theorem load_insert? {root : Path} {ignore : List String} {set : SourceSet} {directory : Location}
    {name : String} {content : ByteArray}
    (inserted : fs.insert? (directory ++ [name]) (.file content) = some changed)
    (unscanned : ¬ ".ts".toList <:+ name.toList) (loaded : Source.load parser fs root ignore = .ok set) :
    Source.load parser changed root ignore = .ok set :=
  ((Source.agree_insert? inserted unscanned).load_eq parser root ignore).trans loaded

/-- A catalog that was written can be written again, and nothing changes. -/
theorem Catalog.write_again {directory path : Path} {text : String}
    (written : Catalog.write fs directory text = .ok (path, changed)) :
    Catalog.write changed directory text = .ok (path, changed) := by
  obtain ⟨_, rfl, stored⟩ := Catalog.write_eq_ok written
  obtain ⟨location, located, standing, _, inserted⟩ := Catalog.write_eq_insert? written
  have present : changed.isDirectory directory = true :=
    FileSystem.isDirectory_iff.mpr ⟨location, FileSystem.locate_insert? inserted located,
      FileSystem.directory_insert? inserted standing⟩
  have again := FileSystem.writeText_again stored
  simp [Catalog.write, present, again]

/-- What a run says, gives and leaves when all of its stages succeed. -/
theorem run_of_stages {set : SourceSet} {messages : List Message}
    (loaded : Source.load parser fs options.projectDir options.ignore = .ok set)
    (extracted : set.extract extractor = .ok messages)
    (finished : Run.finish fs options set messages = .ok (summary, changed)) :
    run parser fs options extractor = {
      log := Run.said options [Run.loadedLine options set] ++
        Run.said options (messages.map (Run.messageLine options))
      result := .ok summary
      files := changed } := by
  simp only [run, loaded, extracted, finished]

/-- **Running again changes nothing.** When a run has succeeded, wherever its output directory lies and
whether or not there was a catalog before, a second run on the file system that it has left says the
same, succeeds with the same messages, number of files and path of the catalog, and leaves the file
system as it is, with the catalog of those messages in it. -/
theorem run_again_unchanged {log : List String} {after : FileSystem}
    (first : run parser fs options extractor = ⟨log, .ok summary, after⟩) :
    run parser after options extractor = ⟨log, .ok summary, after⟩ ∧
      after.readText summary.catalogPath = .ok (Run.catalogText options summary.messages) := by
  have done : (run parser fs options extractor).result = .ok summary := by rw [first]
  obtain ⟨set, loaded, extracted, count, written⟩ := exists_write_of_result_ok done
  rw [first] at written
  obtain ⟨_, path, stored⟩ := Catalog.write_eq_ok written
  obtain ⟨location, _, _, _, inserted⟩ := Catalog.write_eq_insert? written
  have finished : Run.finish fs options set summary.messages = .ok (summary, after) := by
    simp only [Run.finish, written, ← count]
  have refinished : Run.finish after options set summary.messages = .ok (summary, after) := by
    simp only [Run.finish, Catalog.write_again written, ← count]
  -- The catalog's name does not end as the names of source files do.
  have reloaded := load_insert? inserted (by decide) loaded
  refine ⟨?_, FileSystem.readText_of_writeText stored⟩
  rw [run_of_stages reloaded extracted refinished, ← first, run_of_stages loaded extracted finished]

/-- The catalog goes into the project itself, where there was none. -/
def insideOptions : Options := { sampleOptions with outputDir := ⟨"/src/../src"⟩, verbose := true }

/-- The second run leaves the catalog that the first one put into the project. -/
theorem sampleProject_again_unchanged :
    ∃ log summary after,
      run TypeScript.parser (sampleProject "i18n('B')") insideOptions (.named ["i18n"]) = ⟨log, .ok summary, after⟩ ∧
      (sampleProject "i18n('B')").pathExists summary.catalogPath = false ∧
      run TypeScript.parser after insideOptions (.named ["i18n"]) = ⟨log, .ok summary, after⟩ ∧
      after.readText summary.catalogPath = .ok (Run.catalogText insideOptions summary.messages) := by
  have whole : Summary.catalogPath <$>
      (run TypeScript.parser (sampleProject "i18n('B')") insideOptions (.named ["i18n"])).result =
        .ok ⟨"/src/../src/messages.xlf"⟩ := by
    decide +kernel
  obtain ⟨summary, done, catalog⟩ := map_eq_ok.mp whole
  have absent : (sampleProject "i18n('B')").pathExists summary.catalogPath = false := by
    rw [catalog]
    decide +kernel
  cases first : run TypeScript.parser (sampleProject "i18n('B')") insideOptions (.named ["i18n"]) with
  | mk log result after =>
    rw [first] at done
    cases done
    exact ⟨log, summary, after, rfl, absent, run_again_unchanged first⟩

end Harvest
