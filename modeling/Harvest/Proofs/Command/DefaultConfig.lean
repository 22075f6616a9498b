import Harvest.Proofs.Command.History
import Harvest.Proofs.Config.Search
import Harvest.Proofs.Run.Frame

/-!
# Writing down the defaults

Without a configuration file, an extraction takes the default configuration and reads its paths from the
working directory. With the file that `init` writes, it takes the configuration that the file's text
holds and reads its paths from the directory that the file lies in. Both are the same, and the file
itself is none that an extraction reads, so `init` changes nothing of what `extract` does.
-/

namespace Harvest

open Traversal (map_eq_ok)

/-! ## The default configuration -/

namespace Config

variable {fs : FileSystem} {cwd : Path}

/-- The text of the default configuration is read as the default configuration. -/
theorem parse_defaultText : parse defaultText = .ok default := by decide +kernel

/-- The default configuration can be used. -/
theorem validate_default : default.validate = .ok () := by decide +kernel

/-- Where there is no configuration file the default configuration counts. -/
theorem load_of_find?_eq_none (nothing : find? fs cwd = none) :
    load fs cwd = .ok { config := default, fromFile := false, baseDir := cwd } := by
  simp only [load, nothing]

/-- The default configuration is had from a file that holds its text. Its paths start from the directory
of the file. -/
theorem load_of_defaultText (filled : cwd.text ≠ "")
    (written : fs.readText (cwd.join fileName) = .ok defaultText)
    (there : fs.pathExists (cwd.join fileName) = true) :
    load fs cwd = .ok { config := default, fromFile := true, baseDir := cwd.trimmed } := by
  have named : isName fileName.text = true := by decide
  have parent : (cwd.join fileName).parent? = some cwd.trimmed := Path.parent?_join filled named
  have read : readFile fs (cwd.join fileName) = .ok default := by
    simp only [readFile, written, parse_defaultText, validate_default]
  simp only [load, find?_of_pathExists there, read, parent, Option.getD_some]

end Config

namespace Command

variable {parser : TypeScript.ModuleParser} {fs : FileSystem} {cwd : Path} {colored : Bool}

/-! ## Extracting beside a configuration -/

/-- A report that differs from another one by a file in the file system, and by nothing else. -/
structure Report.Beside (alone after : Report) (place : Location) (content : ByteArray) : Prop where
  exitCode : after.exitCode = alone.exitCode
  stdout : after.stdout = alone.stdout
  stderr : after.stderr = alone.stderr
  inserted : FileSystem.insert? alone.files place (.file content) = some after.files

section

variable {beside : FileSystem} {directory : Location} {content : ByteArray} {flags : ExtractFlags}
  {loaded loaded' : Config.Loaded}

/-- Two configurations that give the same options, and of which the same is said, make for the same
extraction. The file that one of them comes from is none that it reads. -/
theorem extract_beside
    (inserted : fs.insert? (directory ++ [Config.fileName.text]) (.file content) = some beside)
    (loads : Config.load fs cwd = .ok loaded) (loads' : Config.load beside cwd = .ok loaded')
    (noted : (flags.verbose && !loaded'.fromFile) = (flags.verbose && !loaded.fromFile))
    (valid : (flags.override loaded'.config).validate = (flags.override loaded.config).validate)
    (options : extractOptions loaded' flags cwd colored = extractOptions loaded flags cwd colored) :
    (extract parser beside flags cwd colored).log = (extract parser fs flags cwd colored).log ∧
      (extract parser beside flags cwd colored).result = (extract parser fs flags cwd colored).result ∧
      FileSystem.insert? (extract parser fs flags cwd colored).files (directory ++ [Config.fileName.text])
        (.file content) = some (extract parser beside flags cwd colored).files := by
  cases checked : (flags.override loaded.config).validate with
  | error cause =>
    simp only [extract, loads, loads', noted, valid, checked]
    exact ⟨trivial, trivial, inserted⟩
  | ok _ =>
    simp only [extract, loads, loads', noted, valid, checked, options]
    obtain ⟨log, result, files⟩ := run_beside inserted (by decide) (by decide)
      (extractOptions loaded flags cwd colored).1
      ⟨.byName (extractOptions loaded flags cwd colored).2, .byDigest⟩
    exact ⟨by rw [log], by rw [result], files⟩

/-- What is reported depends on nothing but the log and the result. -/
theorem reportExtract_beside {place : Location}
    (same : (extract parser beside flags cwd colored).log = (extract parser fs flags cwd colored).log ∧
      (extract parser beside flags cwd colored).result = (extract parser fs flags cwd colored).result ∧
      FileSystem.insert? (extract parser fs flags cwd colored).files place (.file content) =
        some (extract parser beside flags cwd colored).files) :
    Report.Beside (reportExtract parser fs flags cwd colored) (reportExtract parser beside flags cwd colored)
      place content := by
  obtain ⟨log, result, files⟩ := same
  cases ended : (extract parser fs flags cwd colored).result with
  | error failure =>
    rw [ended] at result
    simp only [reportExtract, ended, result, log]
    exact ⟨rfl, rfl, rfl, files⟩
  | ok summary =>
    rw [ended] at result
    simp only [reportExtract, ended, result, log]
    exact ⟨rfl, rfl, rfl, files⟩

end

/-! ## The default configuration written down -/

/-- The options do not depend on where the default configuration comes from. -/
theorem extractOptions_default (settled : cwd.Settled) (flags : ExtractFlags) (colored : Bool) :
    extractOptions { config := .default, fromFile := true, baseDir := cwd.trimmed } flags cwd colored =
      extractOptions { config := .default, fromFile := false, baseDir := cwd } flags cwd colored := by
  simp only [extractOptions, Config.Loaded.resolve, settled.join_trimmed]

/-- The default configuration stands in the working directory of `beside`, and all else is as in
`fs`, where no configuration counts. -/
structure Configured (fs beside : FileSystem) (cwd : Path) (directory : Location) : Prop where
  nothing : Config.find? fs cwd = none
  located : fs.locate (cwd.join Config.fileName) = .ok (directory ++ [Config.fileName.text])
  permitted : fs.refusals.writing (directory ++ [Config.fileName.text]) = none
  inserted : fs.insert? (directory ++ [Config.fileName.text]) (.file Config.defaultText.toUTF8) =
    some beside

variable {beside : FileSystem} {directory : Location} {flags : ExtractFlags}

/-- A configuration that `init` has created is the default one. -/
theorem configured_of_init (nothing : Config.find? fs cwd = none)
    (created : (perform parser fs ["init"] cwd colored).exitCode = 0) :
    ∃ directory, Configured fs (perform parser fs ["init"] cwd colored).files cwd directory ∧
      fs.entry? (directory ++ [Config.fileName.text]) = none := by
  obtain ⟨directory, located, absent, permitted, inserted⟩ :=
    (effect_perform parser fs ["init"] cwd colored).exists_of_init rfl created
  exact ⟨directory, ⟨nothing, located, permitted, inserted⟩, absent⟩

/-- The configuration that is read is the default one. -/
theorem Configured.load_beside (configured : Configured fs beside cwd directory)
    (settled : cwd.Settled) :
    Config.load beside cwd =
      .ok { config := .default, fromFile := true, baseDir := cwd.trimmed } := by
  have located := FileSystem.locate_insert? configured.inserted configured.located
  have there := FileSystem.entry?_insert? configured.inserted (directory ++ [Config.fileName.text])
  rw [if_pos rfl] at there
  have readable : beside.refusals.reading (directory ++ [Config.fileName.text]) = none := by
    rw [(FileSystem.inserted_of_insert? configured.inserted).refusals]
    exact fs.refusals.closed _ configured.permitted
  apply Config.load_of_defaultText settled.text_ne_empty
  · exact FileSystem.readText_of_file located there readable
  · simp only [FileSystem.pathExists, FileSystem.entryAt_of_locate located there]

/-- An extraction that says nothing of its configuration does the same with the default one written
down. -/
theorem Configured.reportExtract_beside (configured : Configured fs beside cwd directory)
    (settled : cwd.Settled) (quiet : flags.verbose = false) :
    Report.Beside (reportExtract parser fs flags cwd colored) (reportExtract parser beside flags cwd colored)
      (directory ++ [Config.fileName.text]) Config.defaultText.toUTF8 := by
  have nothing := Config.load_of_find?_eq_none configured.nothing
  apply Command.reportExtract_beside
  apply extract_beside configured.inserted nothing (configured.load_beside settled)
  · rw [quiet]
    rfl
  · rfl
  · exact extractOptions_default settled flags colored

/-! ## Reports -/

/-- A report that differs from another one by a new file in the file system, and by nothing else. -/
structure Report.WithFile (alone after : Report) (place : Location) (content : ByteArray) : Prop extends
    Report.Beside alone after place content where
  absent : FileSystem.entry? alone.files place = none

/-- Only `init` creates configurations. -/
theorem Effect.entry?_config {words : List String} {report : Report}
    (effect : Effect fs words cwd colored report) (noInit : readArguments words ≠ .ok .init)
    (directory : Location) :
    FileSystem.entry? report.files (directory ++ [Config.fileName.text]) =
      fs.entry? (directory ++ [Config.fileName.text]) := by
  cases effect with
  | failed _ files => rw [files]
  | spoken _ _ files => rw [files]
  | extracted _ _ _ _ _ _ _ _ _ inserted =>
    rw [FileSystem.entry?_insert? inserted, if_neg (FileSystem.concat_ne_concat (by decide))]
  | created _ _ asked => exact absurd asked noInit

/-- Behind the command's name stand its options. -/
theorem readArguments_extract (more : List String) :
    readArguments ("extract" :: more) = Invocation.extract <$> readExtract more {} := by
  show (readExtract more {} >>= fun flags => pure (Invocation.extract flags)) = _
  cases readExtract more {} <;> rfl

/-- **Writing down the defaults changes nothing.** Let no configuration count for the working directory,
let `init` create one there, and let a command line of `extract` not ask for more to be said, whether it
is refused or not. After `init` it ends with the same code and says the same as without it, and the file
systems differ by the new configuration only.

The working directory is spelled as the system spells it, by names from the root (`settled_extend`), or
in any other way without slashes and dots at its end. These would be lost in the spelling of the paths
that the configuration gives. -/
theorem extract_after_init {more : List String} {initColored : Bool} (settled : cwd.Settled)
    (nothing : Config.find? fs cwd = none)
    (created : (perform parser fs ["init"] cwd initColored).exitCode = 0)
    (quiet : ∀ flags, readArguments ("extract" :: more) = .ok (.extract flags) →
      flags.verbose = false) :
    ∃ directory, fs.locate cwd = .ok directory ∧
      Report.WithFile (perform parser fs ("extract" :: more) cwd colored)
        (perform parser (perform parser fs ["init"] cwd initColored).files ("extract" :: more) cwd colored)
        (directory ++ [Config.fileName.text]) Config.defaultText.toUTF8 := by
  obtain ⟨directory, configured, absent⟩ := configured_of_init nothing created
  generalize (perform parser fs ["init"] cwd initColored).files = beside at configured ⊢
  have named : isName Config.fileName.text = true := by decide
  have noInit : readArguments ("extract" :: more) ≠ .ok .init := by
    rw [readArguments_extract]
    intro asked
    obtain ⟨flags, _, same⟩ := map_eq_ok.mp asked
    cases same
  have stays := (effect_perform parser fs ("extract" :: more) cwd colored).entry?_config noInit directory
  rw [absent] at stays
  refine ⟨directory, FileSystem.locate_of_locate_join settled.text_ne_empty named
    configured.located, ?_⟩
  cases read : readExtract more {} with
  | error usage =>
    have asked : readArguments ("extract" :: more) = .error usage := by
      rw [readArguments_extract, read]
      rfl
    simp only [perform, asked] at stays ⊢
    exact ⟨⟨rfl, rfl, rfl, configured.inserted⟩, stays⟩
  | ok flags =>
    have asked : readArguments ("extract" :: more) = .ok (.extract flags) := by
      rw [readArguments_extract, read]
      rfl
    simp only [perform, asked, report] at stays ⊢
    exact ⟨configured.reportExtract_beside settled (quiet flags asked), stays⟩

/-- The directory that the project of `quietProject` lies in. -/
def quietDirectory : Path := (Path.mk "/").extend ["src"]

/-- An extraction that succeeds does the same with the configuration that `init` has created. -/
theorem quietProject_extract_after_init :
    (perform TypeScript.parser quietProject extractCall.words quietDirectory true).exitCode = 0 ∧
    ∃ directory, quietProject.locate quietDirectory = .ok directory ∧
      Report.WithFile (perform TypeScript.parser quietProject extractCall.words quietDirectory true)
        (perform TypeScript.parser (perform TypeScript.parser quietProject ["init"] quietDirectory false).files extractCall.words
          quietDirectory true)
        (directory ++ [Config.fileName.text]) Config.defaultText.toUTF8 := by
  have asked : readArguments extractCall.words = .ok (.extract { outputDir := some ⟨"../out"⟩ }) := by
    decide +kernel
  refine ⟨by decide +kernel, extract_after_init (Path.settled_extend (by decide)) (by decide +kernel)
    (by decide +kernel) fun flags asked' => ?_⟩
  cases asked.symm.trans asked'
  rfl

end Command

end Harvest
