import Harvest.Proofs.Command.DefaultConfig
import Harvest.Proofs.Path.Ancestors
import Harvest.Proofs.Run.SeenFrom

/-!
# Extracting from below a configuration

The search for a configuration passes every directory that holds neither a configuration nor a
repository's mark. So it comes to the same file from every directory below that file with only such
directories between. The paths of the configuration start from where the file lies, and what is left of
the working directory is what relative paths start from, of which there are none. Command lines that name
no paths do the same from all of these directories.
-/

namespace Harvest

open Traversal (map_eq_ok)

variable {parser : TypeScript.ModuleParser} {fs : FileSystem} {place below : Location} {name : String}

/-! ## The search for a configuration -/

namespace FileSystem

/-- The path of a location leads there. -/
theorem locate_ofLocation {entry : Entry} (standing : fs.entry? place = some entry) :
    fs.locate (Path.ofLocation place) = .ok place := by
  have atRoot : fs.locate ⟨"/"⟩ = .ok [] := by
    show fs.follow [] ["", ""] = .ok []
    simp only [follow, entry?_nil, step]
    rfl
  exact locate_extend atRoot standing

/-- A name exists in a directory when there is an entry. -/
theorem pathExists_ofLocation_join (standing : fs.entry? place = some .directory)
    (named : isName name = true) :
    fs.pathExists ((Path.ofLocation place).join ⟨name⟩) = (fs.entry? (place ++ [name])).isSome := by
  have located := locate_join named (locate_ofLocation standing) standing
  unfold pathExists entryAt
  rw [located]
  simp only [bind, Except.bind]
  cases fs.entry? (place ++ [name]) <;> rfl

end FileSystem

namespace Config

/-- A directory holds neither a configuration nor a repository's mark. -/
structure Passed (fs : FileSystem) (place : Location) : Prop where
  unconfigured : fs.entry? (place ++ [fileName.text]) = none
  unmarked : fs.entry? (place ++ [repositoryMark.text]) = none

private theorem Passed.seenFrom (passed : Passed fs place) (elsewhere : Location) :
    Passed (fs.seenFrom elsewhere) place := ⟨passed.unconfigured, passed.unmarked⟩

/-- A configuration in the directory itself is found first. -/
theorem find?_ofLocation_of_configured (standing : fs.entry? place = some .directory)
    (configured : fs.entry? (place ++ [fileName.text]) ≠ none) :
    find? fs (Path.ofLocation place) = some ((Path.ofLocation place).join fileName) := by
  apply find?_of_pathExists
  have there := FileSystem.pathExists_ofLocation_join standing (show isName fileName.text = true by decide)
  exact there.trans (Option.isSome_iff_ne_none.mpr configured)

/-- One step of the search: a directory that holds nothing of interest leaves it to the one above. -/
theorem find?_ofLocation_concat (standing : fs.entry? (place ++ [name]) = some .directory)
    (passed : Passed fs (place ++ [name])) :
    find? fs (Path.ofLocation (place ++ [name])) = find? fs (Path.ofLocation place) := by
  have named := FileSystem.isName_of_entry? standing
  rw [List.all_append, Bool.and_eq_true, List.all_cons, Bool.and_eq_true] at named
  have noConfig := FileSystem.pathExists_ofLocation_join standing
    (show isName fileName.text = true by decide)
  have noMark := FileSystem.pathExists_ofLocation_join standing
    (show isName repositoryMark.text = true by decide)
  rw [passed.unconfigured] at noConfig
  rw [passed.unmarked] at noMark
  rw [find?_eq, if_neg (Bool.eq_false_iff.mp noConfig), if_neg (Bool.eq_false_iff.mp noMark),
    Path.ofLocation_concat, Path.parent?_ofLocation_join named.1 named.2.1, Option.bind_some]

/-- The whole search, from any depth. -/
theorem find?_ofLocation_append (standing : fs.entry? (place ++ below) = some .directory)
    (passed : ∀ front, front ≠ [] → front <+: below → Passed fs (place ++ front)) :
    find? fs (Path.ofLocation (place ++ below)) = find? fs (Path.ofLocation place) := by
  induction below using List.reverseRecOn with
  | nil => rw [List.append_nil]
  | append_singleton below name ih =>
    have here := passed (below ++ [name]) (by simp) (List.prefix_refl _)
    rw [← List.append_assoc] at standing here ⊢
    rw [find?_ofLocation_concat standing here]
    apply ih (FileSystem.directory_of_entry?_concat standing)
    intro front filled inside
    exact passed front filled (inside.trans (List.prefix_append _ _))

/-- A configuration at an absolute path is read alike from everywhere. -/
theorem readFile_seenFrom {path : Path} (absolute : path.isAbsolute = true) :
    readFile (fs.seenFrom place) path = readFile fs path := by
  unfold readFile
  rw [FileSystem.readText_seenFrom absolute]

/-- The configuration that counts in a directory below one that holds it. Its paths start from where it
lies. -/
theorem load_below (standing : fs.entry? (place ++ below) = some .directory)
    (above : fs.entry? place = some .directory)
    (configured : fs.entry? (place ++ [fileName.text]) ≠ none)
    (passed : ∀ front, front ≠ [] → front <+: below → Passed fs (place ++ front)) :
    load fs (Path.ofLocation (place ++ below)) =
      (fun config => { config, fromFile := true, baseDir := Path.ofLocation place }) <$>
        readFile fs ((Path.ofLocation place).join fileName) := by
  have found : find? fs (Path.ofLocation (place ++ below)) =
      some ((Path.ofLocation place).join fileName) := by
    rw [find?_ofLocation_append standing passed]
    exact find?_ofLocation_of_configured above configured
  have parent : ((Path.ofLocation place).join fileName).parent? = some (Path.ofLocation place) :=
    Path.parent?_ofLocation_join (FileSystem.isName_of_entry? above) (by decide)
  simp only [load, found]
  cases readFile fs ((Path.ofLocation place).join fileName) with
  | error error => rfl
  | ok config =>
    simp only [parent, Option.getD_some]
    rfl

end Config

/-! ## Extracting -/

namespace Command

variable {flags : ExtractFlags} {cwd cwd' : Path} {colored : Bool}

/-- Options that name no paths. -/
def ExtractFlags.Pathless (flags : ExtractFlags) : Prop :=
  flags.projectDir = none ∧ flags.outputDir = none

/-- The same report, but with the file system seen from another directory. -/
def Report.seenFrom (report : Report) (place : Location) : Report :=
  { report with files := report.files.seenFrom place }

/-- An extraction that has the same configuration in two directories does the same in both, when no path
starts from either. -/
theorem reportExtract_seenFrom
    (loads : Config.load (fs.seenFrom place) cwd = Config.load fs cwd')
    (absolute : ∀ loaded, Config.load fs cwd' = .ok loaded → loaded.baseDir.isAbsolute = true)
    (pathless : flags.Pathless) :
    reportExtract parser (fs.seenFrom place) flags cwd colored =
      (reportExtract parser fs flags cwd' colored).seenFrom place := by
  cases loaded : Config.load fs cwd' with
  | error error =>
    rw [loaded] at loads
    simp only [reportExtract, extract, loaded, loads]
    rfl
  | ok config =>
    rw [loaded] at loads
    have resolved := Path.isAbsolute_join (absolute config loaded)
    have options : extractOptions config flags cwd colored = extractOptions config flags cwd' colored := by
      simp only [extractOptions, pathless.1, pathless.2, Option.map_none]
    cases valid : (flags.override config.config).validate with
    | error cause =>
      simp only [reportExtract, extract, loaded, loads, valid]
      rfl
    | ok _ =>
      have runs := run_seenFrom parser fs place
        (show (extractOptions config flags cwd' colored).1.projectDir.isAbsolute = true by
          simp only [extractOptions, pathless.1, Option.map_none]
          exact resolved _)
        (show (extractOptions config flags cwd' colored).1.outputDir.isAbsolute = true by
          simp only [extractOptions, pathless.2, Option.map_none]
          exact resolved _)
        ⟨.byName (extractOptions config flags cwd' colored).2, .byDigest⟩
      simp only [reportExtract, extract, loaded, loads, valid, options, runs]
      cases (run parser fs (extractOptions config flags cwd' colored).1
        ⟨.byName (extractOptions config flags cwd' colored).2, .byDigest⟩).result <;> rfl

/-- A call made in the directory at a location. -/
def Call.within (place : Location) (words : List String) (colored : Bool) : Call :=
  ⟨words, Path.ofLocation place, place, colored⟩

/-- **The working directory below a configuration does not matter.** Let a directory hold a
configuration, of whatever content, and let neither `below` nor any directory between the two hold one,
or a repository's mark. A command line of `extract` that names no paths ends with the same code, says
the same and leaves the same entries when it is given there as when it is given beside the configuration,
however the extraction ends. -/
theorem extract_below_config {more : List String}
    (standing : fs.entry? (place ++ below) = some .directory)
    (configured : fs.entry? (place ++ [Config.fileName.text]) ≠ none)
    (passed : ∀ front, front ≠ [] → front <+: below → Config.Passed fs (place ++ front))
    (pathless : ∀ flags, readArguments ("extract" :: more) = .ok (.extract flags) → flags.Pathless) :
    let beside := (Call.within place ("extract" :: more) colored).report parser fs
    let under := (Call.within (place ++ below) ("extract" :: more) colored).report parser fs
    under.exitCode = beside.exitCode ∧ under.stdout = beside.stdout ∧ under.stderr = beside.stderr ∧
      under.files = beside.files.seenFrom (place ++ below) := by
  have above : fs.entry? place = some .directory := by
    cases there : fs.entry? (place ++ [Config.fileName.text]) with
    | none => exact absurd there configured
    | some entry => exact FileSystem.directory_of_entry?_concat there
  have absolute : (Path.ofLocation place).isAbsolute = true := Path.isAbsolute_extend (by decide) place
  -- Both calls read the same file, from the same path.
  have besideLoads : Config.load (fs.seenFrom place) (Path.ofLocation place) =
      (fun config => { config, fromFile := true, baseDir := Path.ofLocation place }) <$>
        Config.readFile fs ((Path.ofLocation place).join Config.fileName) := by
    rw [← Config.readFile_seenFrom (Path.isAbsolute_join absolute _)]
    have loads := @Config.load_below (fs.seenFrom place) place []
    rw [List.append_nil] at loads
    exact loads above above configured fun front filled inside =>
      absurd (List.prefix_nil.mp inside) filled
  have underLoads : Config.load (fs.seenFrom (place ++ below)) (Path.ofLocation (place ++ below)) =
      (fun config => { config, fromFile := true, baseDir := Path.ofLocation place }) <$>
        Config.readFile fs ((Path.ofLocation place).join Config.fileName) := by
    rw [← Config.readFile_seenFrom (Path.isAbsolute_join absolute _)]
    exact Config.load_below standing above configured fun front filled inside =>
      (passed front filled inside).seenFrom _
  have same : (Call.within (place ++ below) ("extract" :: more) colored).report parser fs =
      ((Call.within place ("extract" :: more) colored).report parser fs).seenFrom (place ++ below) := by
    simp only [Call.report, Call.within, perform]
    cases asked : readArguments ("extract" :: more) with
    | error usage => rfl
    | ok invocation =>
      rw [readArguments_extract] at asked
      obtain ⟨flags, read, rfl⟩ := map_eq_ok.mp asked
      apply @reportExtract_seenFrom parser (fs.seenFrom place) (place ++ below)
      · exact underLoads.trans besideLoads.symm
      · intro loaded loads
        rw [besideLoads] at loads
        obtain ⟨config, _, rfl⟩ := map_eq_ok.mp loads
        exact absolute
      · exact pathless flags (by rw [readArguments_extract, read]; rfl)
  simp only [same]
  exact ⟨rfl, rfl, rfl, rfl⟩

/-- A project with its configuration at the root of a repository, and directories below it. -/
def deepProject : FileSystem := .ofEntries [
  (["app"], .directory),
  (["app", ".git"], .directory),
  (["app", Config.fileName.text], .file Config.defaultText.toUTF8),
  (["app", "src"], .directory),
  (["app", "src", "a.ts"], .file "a".toUTF8),
  (["app", "src", "inner"], .directory)]

/-- An extraction two directories below its configuration. -/
theorem deepProject_extract_below_config :
    let beside := (Call.within ["app"] ["extract", "--verbose"] false).report TypeScript.parser deepProject
    let under := (Call.within ["app", "src", "inner"] ["extract", "--verbose"] false).report TypeScript.parser deepProject
    beside.exitCode = 0 ∧ under.exitCode = beside.exitCode ∧ under.stdout = beside.stdout ∧
      under.stderr = beside.stderr ∧
      under.files = beside.files.seenFrom ["app", "src", "inner"] := by
  refine ⟨by decide +kernel, ?_⟩
  have asked : readArguments ["extract", "--verbose"] = .ok (.extract { verbose := true }) := by
    decide +kernel
  refine @extract_below_config TypeScript.parser deepProject ["app"] ["src", "inner"] false ["--verbose"]
    (by decide +kernel) (by decide +kernel) (fun front filled inside => ?_) fun flags asked' => ?_
  · have either : front = ["src"] ∨ front = ["src", "inner"] := by
      simpa [filled] using (List.mem_inits front ["src", "inner"]).mpr inside
    rcases either with rfl | rfl
    · exact ⟨by decide +kernel, by decide +kernel⟩
    · exact ⟨by decide +kernel, by decide +kernel⟩
  · cases asked.symm.trans asked'
    exact ⟨rfl, rfl⟩

end Command

end Harvest
