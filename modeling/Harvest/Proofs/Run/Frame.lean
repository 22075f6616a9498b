import Harvest.Proofs.Run.Obstacle
import Harvest.Proofs.Source.Agreement

/-!
# A run beside a file that it does not read

A run reads directories and source files, and writes the catalog. A file of any other kind may stand
where it likes: the run says the same and gives the same result beside it, and the file is still there
when the run has ended, in the same file system otherwise.
-/

namespace Harvest

variable {parser : TypeScript.ModuleParser} {fs beside : FileSystem} {outer : Location} {name : String} {content : ByteArray}

/-- A catalog is written, or not, as it is without the file. -/
theorem Catalog.write_beside
    (inserted : fs.insert? (outer ++ [name]) (.file content) = some beside)
    (unscanned : ¬ ".ts".toList <:+ name.toList) (apart : name ≠ Catalog.fileName.text)
    (directory : Path) (text : String) :
    (∃ error, Catalog.write fs directory text = .error error ∧
      Catalog.write beside directory text = .error error) ∨
    (∃ path changed both, Catalog.write fs directory text = .ok (path, changed) ∧
      Catalog.write beside directory text = .ok (path, both) ∧
      changed.insert? (outer ++ [name]) (.file content) = some both) := by
  have agree := Source.agree_insert? inserted unscanned
  have named : isName Catalog.fileName.text = true := by decide
  obtain ⟨missing, failed⟩ | ⟨location, cause, located, standing, blocked, failed⟩ |
    ⟨changed, present, stored, written⟩ := Catalog.write_cases fs directory text
  · refine .inl ⟨_, failed, ?_⟩
    simp [Catalog.write, agree.isDirectory_eq, missing]
  · have present := FileSystem.isDirectory_iff.mpr ⟨location, located, standing⟩
    have refused := FileSystem.writeText_join_of_blocked (agree.locate_iff.mpr located)
      ((agree.directories _).mpr standing) named (agree.blocked_iff.mpr blocked) text
    refine .inl ⟨_, failed, ?_⟩
    simp [Catalog.write, agree.isDirectory_eq, present, refused]
  · obtain ⟨location, located, standing, permitted, putFirst⟩ := Catalog.write_eq_insert? written
    obtain ⟨cause, blocked⟩ | ⟨both, stored'⟩ := FileSystem.exists_writeText_join
      (agree.locate_iff.mpr located) ((agree.directories _).mpr standing) named text
    · have refused := FileSystem.writeText_join_of_blocked located standing named
        (agree.blocked_iff.mp blocked) text
      cases stored.symm.trans refused
    have written' : Catalog.write beside directory text =
        .ok (directory.join Catalog.fileName, both) := by
      simp [Catalog.write, agree.isDirectory_eq, present, stored']
    obtain ⟨location', located', _, _, putSecond⟩ := Catalog.write_eq_insert? written'
    cases (agree.locate_iff.mp located').symm.trans located
    refine .inr ⟨_, changed, both, written, written', ?_⟩
    exact FileSystem.insert?_comm (FileSystem.concat_ne_concat apart) inserted putSecond putFirst

/-- **A run does not see what it does not read.** -/
theorem run_beside (inserted : fs.insert? (outer ++ [name]) (.file content) = some beside)
    (unscanned : ¬ ".ts".toList <:+ name.toList) (apart : name ≠ Catalog.fileName.text)
    (options : Options) (extractor : Extractor) :
    (run parser beside options extractor).log = (run parser fs options extractor).log ∧
      (run parser beside options extractor).result = (run parser fs options extractor).result ∧
      FileSystem.insert? (run parser fs options extractor).files (outer ++ [name]) (.file content) =
        some (run parser beside options extractor).files := by
  have loads := (Source.agree_insert? inserted unscanned).load_eq parser options.projectDir options.ignore
  cases loaded : Source.load parser fs options.projectDir options.ignore with
  | error error =>
    rw [loaded] at loads
    simp only [run, loaded, loads]
    exact ⟨trivial, trivial, inserted⟩
  | ok set =>
    rw [loaded] at loads
    cases extracted : set.extract extractor with
    | error error =>
      simp only [run, loaded, loads, extracted]
      exact ⟨trivial, trivial, inserted⟩
    | ok messages =>
      obtain ⟨error, failed, failed'⟩ | ⟨path, changed, both, written, written', put⟩ :=
        Catalog.write_beside inserted unscanned apart options.outputDir
          (Run.catalogText options messages)
      · simp only [run, loaded, loads, extracted, Run.finish, failed, failed']
        exact ⟨trivial, trivial, inserted⟩
      · simp only [run, loaded, loads, extracted, Run.finish, written, written']
        exact ⟨trivial, trivial, put⟩

end Harvest
