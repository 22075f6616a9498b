import Harvest.Proofs.Command.DefaultConfig

/-!
# Options in place of the configuration's fields

An option takes the place of a field, so an extraction never uses what the field holds. But the values of
a configuration are checked twice, where it is read and when the options have taken their places, and the
first check sees the fields that are overridden too. So two configurations that differ in such fields make
for the same report when they pass the first check alike, and a fault in one of them is all that is
reported on it.
-/

namespace Harvest

variable {parser : TypeScript.ModuleParser} {fs changed : FileSystem} {path cwd : Path} {place : Location} {content : ByteArray}
  {text text' : String}

/-! ## Another text in the same file -/

namespace FileSystem

/-- The same paths exist when a file has got another content. -/
theorem pathExists_insert? (inserted : fs.insert? place (.file content) = some changed)
    (there : fs.entry? place ≠ none) (path : Path) : changed.pathExists path = fs.pathExists path := by
  have sameDirectories := directory_insert?_iff inserted
  have sameStart := (inserted_of_insert? inserted).current
  have sameWay (location : Location) : changed.locate path = .ok location ↔ fs.locate path = .ok location :=
    ⟨locate_of_kept (fun place => (sameDirectories place).mp) sameStart.symm, locate_insert? inserted⟩
  have sameEntries (location : Location) :
      changed.entry? location ≠ none ↔ fs.entry? location ≠ none := by
    rw [entry?_insert? inserted]
    split
    · rename_i same
      rw [same]
      simp [there]
    · rfl
  rw [Bool.eq_iff_iff, pathExists_iff, pathExists_iff]
  simp only [sameWay, sameEntries]

end FileSystem

namespace Config

variable {config config' : Config}

private theorem findIn_congr {other : FileSystem} (same : ∀ path, other.pathExists path = fs.pathExists path)
    (directories : List Path) : findIn other directories = findIn fs directories := by
  induction directories with
  | nil => rfl
  | cons directory above ih => rw [findIn, findIn, same, same, ih]

/-- A configuration that is found is there. -/
theorem pathExists_of_find? (found : find? fs cwd = some path) : fs.pathExists path = true := by
  obtain ⟨_, directory, nearest, rfl⟩ := find?_eq_some_iff.mp found
  exact (fs.pathExists_join_iff directory (by decide)).mpr nearest.configured

/-- A configuration is found in a directory, by its name. -/
theorem exists_concat_of_find? (found : find? fs cwd = some path)
    (located : fs.locate path = .ok place) : ∃ directory, place = directory ++ [fileName.text] := by
  obtain ⟨_, directory, _, rfl⟩ := find?_eq_some_iff.mp found
  exact FileSystem.exists_concat_of_locate_join (by decide) located

/-- A configuration that was found is found again when it has got another text. -/
theorem find?_of_writeText (found : find? fs cwd = some path)
    (written : fs.writeText path text = .ok changed) : find? changed cwd = some path := by
  obtain ⟨place, located, _, inserted⟩ := FileSystem.writeBytes_eq_ok written
  obtain ⟨place', located', there⟩ := FileSystem.pathExists_iff.mp (pathExists_of_find? found)
  cases located.symm.trans located'
  rw [find?, findIn_congr (FileSystem.pathExists_insert? inserted there)]
  exact found

/-- What a configuration that was found gives, if it can be read. -/
theorem load_of_find? (found : find? fs cwd = some path) (read : fs.readText path = .ok text)
    (parsed : parse text = .ok config) :
    load fs cwd = (config.validate.mapError LoadError.invalid).map fun _ =>
      { config, fromFile := true, baseDir := path.parent?.getD cwd } := by
  simp only [load, found, readFile, read, parsed]
  cases config.validate <;> rfl

end Config

namespace Command

variable {config config' : Config} {flags : ExtractFlags} {colored : Bool}

/-! ## Fields that are overridden -/

/-- Two configurations differ at most in fields that the options override. -/
structure ExtractFlags.AgreeBesides (flags : ExtractFlags) (config config' : Config) : Prop where
  projectDir : flags.projectDir = none → config'.projectDir = config.projectDir
  outputDir : flags.outputDir = none → config'.outputDir = config.outputDir
  sourceLang : flags.sourceLang = none → config'.sourceLang = config.sourceLang
  ignore : flags.ignore = [] → config'.ignore = config.ignore
  functions : flags.functions = [] → config'.functions = config.functions

namespace ExtractFlags.AgreeBesides

/-- With the options in their places, only the directories can differ. -/
theorem override_eq (agree : flags.AgreeBesides config config') :
    flags.override config' =
      { flags.override config with projectDir := config'.projectDir, outputDir := config'.outputDir } := by
  have sourceLang : flags.sourceLang.getD config'.sourceLang =
      flags.sourceLang.getD config.sourceLang := by
    cases given : flags.sourceLang with
    | none => exact agree.sourceLang given
    | some language => rfl
  have ignore : (if flags.ignore.isEmpty then config'.ignore else flags.ignore) =
      if flags.ignore.isEmpty then config.ignore else flags.ignore := by
    cases given : flags.ignore with
    | nil => exact agree.ignore given
    | cons entry entries => rfl
  have functions : (if flags.functions.isEmpty then config'.functions else flags.functions) =
      if flags.functions.isEmpty then config.functions else flags.functions := by
    cases given : flags.functions with
    | nil => exact agree.functions given
    | cons name names => rfl
  simp only [override, sourceLang, ignore, functions]

/-- The directories are not checked. -/
theorem validate_override (agree : flags.AgreeBesides config config') :
    (flags.override config').validate = (flags.override config).validate := by
  rw [agree.override_eq]
  rfl

/-- The options of the extraction are the same. -/
theorem extractOptions_eq (agree : flags.AgreeBesides config config') (fromFile : Bool) (baseDir : Path) :
    extractOptions { config := config', fromFile, baseDir } flags cwd colored =
      extractOptions { config, fromFile, baseDir } flags cwd colored := by
  have projectDir : (flags.projectDir.map cwd.join).getD (baseDir.join ⟨config'.projectDir⟩) =
      (flags.projectDir.map cwd.join).getD (baseDir.join ⟨config.projectDir⟩) := by
    cases given : flags.projectDir with
    | none => rw [agree.projectDir given]
    | some directory => rfl
  have outputDir : (flags.outputDir.map cwd.join).getD (baseDir.join ⟨config'.outputDir⟩) =
      (flags.outputDir.map cwd.join).getD (baseDir.join ⟨config.outputDir⟩) := by
    cases given : flags.outputDir with
    | none => rw [agree.outputDir given]
    | some directory => rfl
  simp only [extractOptions, Config.Loaded.resolve, agree.override_eq, projectDir, outputDir]
  rfl

end ExtractFlags.AgreeBesides

/-! ## Faults -/

/-- The first fault in what a configuration says, or in what is left of it when the options have taken
their places. -/
def ExtractFlags.check (flags : ExtractFlags) (config : Config) : Except Config.Invalid Unit := do
  config.validate
  (flags.override config).validate

/-- What is reported on values that cannot be used. -/
def Report.refusal (fs : FileSystem) (cause : Config.Invalid) : Report where
  exitCode := 2
  stdout := ""
  stderr := lines [failureLine cause.message]
  files := fs

/-- A configuration at fault is refused, whatever the options. -/
theorem reportExtract_of_check {cause : Config.Invalid} (found : Config.find? fs cwd = some path)
    (read : fs.readText path = .ok text) (parsed : Config.parse text = .ok config)
    (fault : flags.check config = .error cause) :
    reportExtract parser fs flags cwd colored = Report.refusal fs cause := by
  have loads := Config.load_of_find? found read parsed
  unfold ExtractFlags.check at fault
  cases valid : config.validate with
  | error cause' =>
    rw [valid] at fault loads
    cases fault
    simp only [reportExtract, extract, loads]
    rfl
  | ok _ =>
    rw [valid] at fault loads
    have overridden : (flags.override config).validate = .error cause := fault
    simp only [reportExtract, extract, loads, Except.mapError, Except.map, overridden, Bool.not_true,
      Bool.and_false]
    rfl

/-! ## Two configurations -/

/-- Configurations that pass the check alike make for the same report if they differ only in what the
options override. -/
theorem reportExtract_of_writeText (found : Config.find? fs cwd = some path)
    (read : fs.readText path = .ok text) (parsed : Config.parse text = .ok config)
    (written : fs.writeText path text' = .ok changed) (parsed' : Config.parse text' = .ok config')
    (located : fs.locate path = .ok place) (agree : flags.AgreeBesides config config')
    (alike : config'.validate = config.validate) :
    Report.Beside (reportExtract parser fs flags cwd colored) (reportExtract parser changed flags cwd colored)
      place text'.toUTF8 := by
  obtain ⟨place', located', _, inserted⟩ := FileSystem.writeBytes_eq_ok written
  cases located.symm.trans located'
  obtain ⟨directory, rfl⟩ := Config.exists_concat_of_find? found located
  have loads := Config.load_of_find? found read parsed
  have found' := Config.find?_of_writeText found written
  have read' := FileSystem.readText_of_writeText written
  have loads' := Config.load_of_find? found' read' parsed'
  cases valid : config.validate with
  | error cause =>
    have fault : flags.check config = .error cause := by
      rw [ExtractFlags.check, valid]
      rfl
    have fault' : flags.check config' = .error cause := by
      rw [ExtractFlags.check, alike, valid]
      rfl
    rw [reportExtract_of_check found read parsed fault,
      reportExtract_of_check found' read' parsed' fault']
    exact ⟨rfl, rfl, rfl, inserted⟩
  | ok _ =>
    rw [valid] at loads
    rw [alike, valid] at loads'
    apply reportExtract_beside
    exact extract_beside inserted loads loads' rfl agree.validate_override
      (agree.extractOptions_eq true _)

/-- **Options take priority over the configuration.** Let two texts be configurations that differ only in
fields that a command line overrides, whatever these fields hold, and let the one that is found have the
one text or the other. If both pass the check, or both fail it for the same fault, the command line ends
with the same code and says the same, and the file systems that it leaves differ by the text of the
configuration only. Otherwise, the first fault in a configuration is all that is reported on it, and
nothing is changed. -/
theorem extract_overrides_config {more : List String} (found : Config.find? fs cwd = some path)
    (read : fs.readText path = .ok text) (parsed : Config.parse text = .ok config)
    (written : fs.writeText path text' = .ok changed) (parsed' : Config.parse text' = .ok config')
    (besides : ∀ flags, readArguments ("extract" :: more) = .ok (.extract flags) →
      flags.AgreeBesides config config') :
    ∃ place, fs.locate path = .ok place ∧
      (config'.validate = config.validate →
        Report.Beside (perform parser fs ("extract" :: more) cwd colored)
          (perform parser changed ("extract" :: more) cwd colored) place text'.toUTF8) ∧
      ∀ flags cause, readArguments ("extract" :: more) = .ok (.extract flags) →
        (flags.check config = .error cause →
          perform parser fs ("extract" :: more) cwd colored = Report.refusal fs cause) ∧
        (flags.check config' = .error cause →
          perform parser changed ("extract" :: more) cwd colored = Report.refusal changed cause) := by
  obtain ⟨place, located, _, inserted⟩ := FileSystem.writeBytes_eq_ok written
  have found' := Config.find?_of_writeText found written
  have read' := FileSystem.readText_of_writeText written
  refine ⟨place, located, fun alike => ?_, fun flags cause asked => ?_⟩
  · cases accepted : readExtract more {} with
    | error usage =>
      have asked : readArguments ("extract" :: more) = .error usage := by
        rw [readArguments_extract, accepted]
        rfl
      simp only [perform, asked]
      exact ⟨rfl, rfl, rfl, inserted⟩
    | ok flags =>
      have asked : readArguments ("extract" :: more) = .ok (.extract flags) := by
        rw [readArguments_extract, accepted]
        rfl
      simp only [perform, asked, report]
      exact reportExtract_of_writeText found read parsed written parsed' located (besides flags asked)
        alike
  · simp only [perform, asked, report]
    exact ⟨reportExtract_of_check found read parsed, reportExtract_of_check found' read' parsed'⟩

/-- A project that has the text as its configuration. -/
def projectWith (text : String) : FileSystem := .ofEntries [
  (["app"], .directory),
  (["app", Config.fileName.text], .file text.toUTF8),
  (["app", "out"], .directory),
  (["app", "src"], .directory),
  (["app", "src", "a.ts"], .file "a".toUTF8)]

/-- A configuration whose values are good, but of no use: its project is not there, and all is ignored. -/
def idleText : String :=
  "\x7b\"projectDir\": \"none\", \"ignore\": [\"**\"], \"sourceLang\": \"fr\"\x7d"

/-- Another one, with nowhere to put the catalog and no function of the project. -/
def lostText : String :=
  "\x7b\"outputDir\": \"none\", \"functions\": [\"t\"], \"sourceLang\": \"it\"\x7d"

/-- Options in place of all fields. -/
def allOptions : List String := [
  "--project-dir", ".", "--output-dir=../out", "--source-lang", "de", "--ignore", "b", "--function", "i18n"]

/-- Of two configurations that are of no use, nothing is left when all their fields are overridden. -/
theorem projectWith_overrides :
    let report := perform TypeScript.parser (projectWith idleText) ("extract" :: allOptions) ⟨"/app/src"⟩ false
    report.exitCode = 0 ∧ ∃ place, (projectWith idleText).locate ⟨"/app/.xliffrc.json"⟩ = .ok place ∧
      Report.Beside report (perform TypeScript.parser (projectWith lostText) ("extract" :: allOptions) ⟨"/app/src"⟩ false)
        place lostText.toUTF8 := by
  have asked : readArguments ("extract" :: allOptions) =
      .ok (.extract ⟨some ⟨"."⟩, some ⟨"../out"⟩, some "de", ["b"], ["i18n"], false⟩) := by
    decide +kernel
  have besides (flags : ExtractFlags)
      (asked' : readArguments ("extract" :: allOptions) = .ok (.extract flags)) :
      flags.AgreeBesides ⟨"none", ".", "fr", ["**"], ["i18n"]⟩ ⟨".", "none", "it", [], ["t"]⟩ := by
    cases asked.symm.trans asked'
    exact ⟨by decide, by decide, by decide, by decide, by decide⟩
  obtain ⟨place, located, same, _⟩ := @extract_overrides_config TypeScript.parser (projectWith idleText)
    (projectWith lostText) ⟨"/app/.xliffrc.json"⟩ ⟨"/app/src"⟩ idleText lostText _ _ false allOptions
    (by decide +kernel) (by decide +kernel) (by decide +kernel) rfl (by decide +kernel) besides
  exact ⟨by decide +kernel, place, located, same (by decide +kernel)⟩

/-- A blank language is refused although an option overrides it. -/
theorem blank_language_refused :
    let words := ["extract", "--source-lang", "de"]
    ∃ text text' config config',
      Config.find? (projectWith text) ⟨"/app"⟩ = some ⟨"/app/.xliffrc.json"⟩ ∧
      (projectWith text).readText ⟨"/app/.xliffrc.json"⟩ = .ok text ∧ Config.parse text = .ok config ∧
      (projectWith text).writeText ⟨"/app/.xliffrc.json"⟩ text' = .ok (projectWith text') ∧
      Config.parse text' = .ok config' ∧
      (∀ flags, readArguments words = .ok (.extract flags) → flags.AgreeBesides config config') ∧
      (perform TypeScript.parser (projectWith text) words ⟨"/app"⟩ false).exitCode = 0 ∧
      (perform TypeScript.parser (projectWith text') words ⟨"/app"⟩ false).exitCode = 2 := by
  have asked : readArguments ["extract", "--source-lang", "de"] =
      .ok (.extract { sourceLang := some "de" }) := by decide +kernel
  refine ⟨"\x7b\x7d", "\x7b\"sourceLang\": \"\"\x7d", {}, { sourceLang := "" }, by decide +kernel,
    by decide +kernel, by decide +kernel, rfl, by decide +kernel, fun flags asked' => ?_,
    by decide +kernel, by decide +kernel⟩
  cases asked.symm.trans asked'
  exact ⟨by decide, by decide, by decide, by decide, by decide⟩

end Command

end Harvest
