import Harvest.Command.Run
import Harvest.Proofs.FileSystem.Directory
import Harvest.Proofs.Run.AllOrNothing

/-!
# What commands can touch

A command line does one of four things to a file system. It fails and leaves everything as it was; it
says something and leaves everything as it was; it puts a catalog into the output directory; or it puts
the default configuration into the working directory, where there was none. So however many command
lines are given, from whatever directories: no directory comes or goes, no file changes but catalogs and
configurations, and a configuration that is there stays as it is.
-/

namespace Harvest

/-- A file system as seen from a directory, which relative paths start from. -/
def FileSystem.seenFrom (fs : FileSystem) (place : Location) : FileSystem :=
  { fs with current := place }

/-- Where a file system is seen from does not change what stands in it. -/
theorem FileSystem.entry?_seenFrom (fs : FileSystem) (place location : Location) :
    FileSystem.entry? (fs.seenFrom place) location = fs.entry? location := rfl

open TypeScript (ModuleParser)

namespace Command

variable {parser : ModuleParser} {fs : FileSystem} {words : List String} {flags : ExtractFlags} {cwd : Path} {colored : Bool}

/-! ## What one command line does -/

/-- All that a command line can do. -/
inductive Effect (fs : FileSystem) (words : List String) (cwd : Path) (colored : Bool)
    (report : Report) : Prop where
  | failed (code : report.exitCode ≠ 0) (files : report.files = fs)
  /-- Neither command is given. -/
  | spoken (noExtract : ∀ flags, readArguments words ≠ .ok (.extract flags))
    (noInit : readArguments words ≠ .ok .init) (files : report.files = fs)
  | extracted (code : report.exitCode = 0) (flags : ExtractFlags) (loaded : Config.Loaded)
    (directory : Location) (content : ByteArray)
    (asked : readArguments words = .ok (.extract flags)) (configured : Config.load fs cwd = .ok loaded)
    (located : fs.locate (extractOptions loaded flags cwd colored).1.outputDir = .ok directory)
    (standing : fs.entry? directory = some .directory)
    (inserted : fs.insert? (directory ++ [Catalog.fileName.text]) (.file content) = some report.files)
  | created (code : report.exitCode = 0) (directory : Location)
    (asked : readArguments words = .ok .init)
    (located : fs.locate (cwd.join Config.fileName) = .ok (directory ++ [Config.fileName.text]))
    (absent : fs.entry? (directory ++ [Config.fileName.text]) = none)
    (permitted : fs.refusals.writing (directory ++ [Config.fileName.text]) = none)
    (inserted : fs.insert? (directory ++ [Config.fileName.text]) (.file Config.defaultText.toUTF8) =
      some report.files)

/-- An extraction fails before anything is run, or it is a run with the options that the configuration
and the flags give. -/
theorem extract_cases (parser : ModuleParser) (fs : FileSystem) (flags : ExtractFlags) (cwd : Path)
    (colored : Bool) :
    (∃ log failure, extract parser fs flags cwd colored = ⟨log, .error failure, fs⟩) ∨
    (∃ log loaded extractor outcome, Config.load fs cwd = .ok loaded ∧
      outcome = run parser fs (extractOptions loaded flags cwd colored).1 extractor ∧
      extract parser fs flags cwd colored = {
        log := log ++ outcome.log
        result := outcome.result.mapError
          (.ofHalt (extractOptions loaded flags cwd colored).1.projectDir)
        files := outcome.files }) := by
  cases configured : Config.load fs cwd with
  | error error =>
    left
    simp only [extract, configured]
    exact ⟨_, _, rfl⟩
  | ok loaded =>
    cases valid : (flags.override loaded.config).validate with
    | error cause =>
      left
      simp only [extract, configured, valid]
      exact ⟨_, _, rfl⟩
    | ok _ =>
      right
      simp only [extract, configured, valid]
      exact ⟨_, loaded, _, _, rfl, rfl, rfl⟩

/-- No failure is reported as a success. -/
theorem ExtractFailure.exitCode_ne_zero (failure : ExtractFailure) : failure.exitCode ≠ 0 := by
  cases failure <;> exact Nat.succ_ne_zero _

/-- An extraction fails and leaves everything as it was, or it puts a catalog. -/
theorem effect_reportExtract (asked : readArguments words = .ok (.extract flags)) :
    Effect fs words cwd colored (reportExtract parser fs flags cwd colored) := by
  obtain ⟨log, failure, ended⟩ | ⟨log, loaded, extractor, outcome, configured, ran, ended⟩ :=
    extract_cases parser fs flags cwd colored
  · simp only [reportExtract, ended]
    exact .failed failure.exitCode_ne_zero rfl
  · cases result : outcome.result with
    | error halt =>
      simp only [reportExtract, ended, result, Except.mapError]
      refine .failed (ExtractFailure.exitCode_ne_zero _) ?_
      subst ran
      exact files_of_result_error result
    | ok summary =>
      simp only [reportExtract, ended, result, Except.mapError]
      subst ran
      obtain ⟨set, _, _, _, written⟩ := exists_write_of_result_ok result
      obtain ⟨directory, located, standing, _, inserted⟩ := Catalog.write_eq_insert? written
      exact .extracted rfl flags loaded directory _ asked configured located standing inserted

/-- The default configuration is put where there is none, or everything is left as it was. -/
theorem effect_reportInit (asked : readArguments words = .ok .init) :
    Effect fs words cwd colored (reportInit fs cwd colored) := by
  by_cases taken : fs.pathExists (cwd.join Config.fileName) = true
  · simp only [reportInit, init, taken, if_true]
    exact .failed (Nat.succ_ne_zero _) rfl
  · have named : isName Config.fileName.text = true := by decide
    cases written : fs.writeText (cwd.join Config.fileName) Config.defaultText with
    | error cause =>
      simp only [reportInit, init, taken, written]
      exact .failed (Nat.succ_ne_zero _) rfl
    | ok changed =>
      obtain ⟨location, located, permitted, inserted⟩ := FileSystem.writeBytes_eq_ok written
      obtain ⟨directory, rfl⟩ := FileSystem.exists_concat_of_locate_join named located
      have absent : fs.entry? (directory ++ [Config.fileName.text]) = none := by
        cases there : fs.entry? (directory ++ [Config.fileName.text]) with
        | none => rfl
        | some entry =>
          have found := FileSystem.entryAt_of_locate located there
          exact absurd (by simp only [FileSystem.pathExists, found]) taken
      simp only [reportInit, init, taken, written]
      exact .created rfl directory asked located absent permitted inserted

/-- Every command line has one of the effects. -/
theorem effect_perform (parser : ModuleParser) (fs : FileSystem) (words : List String) (cwd : Path)
    (colored : Bool) : Effect fs words cwd colored (perform parser fs words cwd colored) := by
  cases asked : readArguments words with
  | error usage =>
    simp only [perform, asked]
    exact .spoken (by simp [asked]) (by simp [asked]) rfl
  | ok invocation =>
    simp only [perform, asked]
    cases invocation with
    | nothing => exact .spoken (by simp [asked]) (by simp [asked]) rfl
    | extract flags => exact effect_reportExtract asked
    | init => exact effect_reportInit asked

namespace Effect

variable {report : Report}

/-- A failure leaves everything as it was. -/
theorem files_of_exitCode_ne_zero (effect : Effect fs words cwd colored report)
    (code : report.exitCode ≠ 0) : report.files = fs := by
  cases effect with
  | failed _ files => exact files
  | spoken _ _ files => exact files
  | extracted done => exact absurd done code
  | created done => exact absurd done code

/-- Without a command everything is left as it was. -/
theorem files_of_no_command (effect : Effect fs words cwd colored report)
    (noExtract : ∀ flags, readArguments words ≠ .ok (.extract flags))
    (noInit : readArguments words ≠ .ok .init) : report.files = fs := by
  cases effect with
  | failed _ files => exact files
  | spoken _ _ files => exact files
  | extracted _ flags _ _ _ asked => exact absurd asked (noExtract flags)
  | created _ _ asked => exact absurd asked noInit

/-- What an extraction that succeeds has done. -/
theorem exists_of_extract (effect : Effect fs words cwd colored report)
    (asked : readArguments words = .ok (.extract flags)) (code : report.exitCode = 0) :
    ∃ loaded directory content, Config.load fs cwd = .ok loaded ∧
      fs.locate (extractOptions loaded flags cwd colored).1.outputDir = .ok directory ∧
      fs.insert? (directory ++ [Catalog.fileName.text]) (.file content) = some report.files := by
  cases effect with
  | failed failed => exact absurd code failed
  | spoken noExtract => exact absurd asked (noExtract flags)
  | extracted _ flags' loaded directory content asked' configured located standing inserted =>
    cases asked.symm.trans asked'
    exact ⟨loaded, directory, content, configured, located, inserted⟩
  | created _ _ asked' => cases asked.symm.trans asked'

/-- What a creation of a configuration that succeeds has done. -/
theorem exists_of_init (effect : Effect fs words cwd colored report)
    (asked : readArguments words = .ok .init) (code : report.exitCode = 0) :
    ∃ directory, fs.locate (cwd.join Config.fileName) = .ok (directory ++ [Config.fileName.text]) ∧
      fs.entry? (directory ++ [Config.fileName.text]) = none ∧
      fs.refusals.writing (directory ++ [Config.fileName.text]) = none ∧
      fs.insert? (directory ++ [Config.fileName.text]) (.file Config.defaultText.toUTF8) =
        some report.files := by
  cases effect with
  | failed failed => exact absurd code failed
  | spoken _ noInit => exact absurd asked noInit
  | extracted _ _ _ _ _ asked' => cases asked.symm.trans asked'
  | created _ directory _ located absent permitted inserted =>
    exact ⟨directory, located, absent, permitted, inserted⟩

end Effect

/-! ## What no command line changes -/

/-- What is kept of a file system: its directories, all files but catalogs and configurations, and the
configurations that are there, and what it refuses. -/
structure Kept (fs after : FileSystem) : Prop where
  refusals : after.refusals = fs.refusals
  directories : ∀ location,
    after.entry? location = some .directory ↔ fs.entry? location = some .directory
  others : ∀ location, location.getLast? ≠ some Catalog.fileName.text →
    location.getLast? ≠ some Config.fileName.text → after.entry? location = fs.entry? location
  configs : ∀ location, location.getLast? = some Config.fileName.text → fs.entry? location ≠ none →
    after.entry? location = fs.entry? location

namespace Kept

/-- Everything is kept where nothing is done. -/
theorem refl (fs : FileSystem) : Kept fs fs :=
  ⟨rfl, fun _ => Iff.rfl, fun _ _ _ => rfl, fun _ _ _ => rfl⟩

/-- It does not matter where relative paths start from. -/
theorem seenFrom (fs : FileSystem) (place : Location) : Kept fs (fs.seenFrom place) :=
  ⟨rfl, fun _ => Iff.rfl, fun _ _ _ => rfl, fun _ _ _ => rfl⟩

/-- What is kept twice is kept. -/
theorem trans {between after : FileSystem} (first : Kept fs between) (second : Kept between after) :
    Kept fs after where
  refusals := second.refusals.trans first.refusals
  directories location := (second.directories location).trans (first.directories location)
  others location noCatalog noConfig :=
    (second.others location noCatalog noConfig).trans (first.others location noCatalog noConfig)
  configs location config standing := by
    have same := first.configs location config standing
    exact (second.configs location config (same ▸ standing)).trans same

/-- A catalog may be put anywhere, and a configuration where there is none. -/
theorem insert? {changed : FileSystem} {directory : Location} {name : String} {content : ByteArray}
    (inserted : fs.insert? (directory ++ [name]) (.file content) = some changed)
    (either : name = Catalog.fileName.text ∨
      name = Config.fileName.text ∧ fs.entry? (directory ++ [name]) = none) : Kept fs changed where
  refusals := (FileSystem.inserted_of_insert? inserted).refusals
  directories := FileSystem.directory_insert?_iff inserted
  others location noCatalog noConfig := by
    rw [FileSystem.entry?_insert? inserted, if_neg]
    rintro rfl
    rw [List.getLast?_concat] at noCatalog noConfig
    rcases either with rfl | ⟨rfl, _⟩
    · exact noCatalog rfl
    · exact noConfig rfl
  configs location config standing := by
    rw [FileSystem.entry?_insert? inserted, if_neg]
    rintro rfl
    rw [List.getLast?_concat] at config
    rcases either with rfl | ⟨_, absent⟩
    · exact absurd config (by decide)
    · exact standing absent

end Kept

/-- No effect touches what is to be kept. -/
theorem Effect.kept {report : Report} (effect : Effect fs words cwd colored report) :
    Kept fs report.files := by
  cases effect with
  | failed code files => exact files ▸ Kept.refl fs
  | spoken noExtract noInit files => exact files ▸ Kept.refl fs
  | extracted code flags loaded directory content asked configured located standing inserted =>
    exact Kept.insert? inserted (.inl rfl)
  | created code directory asked located absent permitted inserted =>
    exact Kept.insert? inserted (.inr ⟨rfl, absent⟩)

/-! ## Calls -/

/-- A command line, given in a directory. `cwd` is how the directory is spelled and `place` where it
lies. -/
structure Call where
  words : List String
  cwd : Path
  place : Location
  colored : Bool

/-- What a call leaves behind. -/
def Call.report (parser : ModuleParser) (call : Call) (fs : FileSystem) : Report :=
  perform parser (fs.seenFrom call.place) call.words call.cwd call.colored

/-- The working directory of a call is there. -/
structure Call.Placed (call : Call) (fs : FileSystem) : Prop where
  located : (fs.seenFrom call.place).locate call.cwd = .ok call.place
  standing : fs.entry? call.place = some .directory

/-- The file system that calls leave when they are made one after the other. -/
def leave (parser : ModuleParser) (fs : FileSystem) (calls : List Call) : FileSystem :=
  calls.foldl (fun before call => (call.report parser before).files) fs

/-- The limits of what a call does to a file system. -/
structure Confined (parser : ModuleParser) (fs : FileSystem) (call : Call) : Prop extends
    Kept fs (call.report parser fs).files where
  failed : (call.report parser fs).exitCode ≠ 0 → (call.report parser fs).files = fs.seenFrom call.place
  spoken : (∀ flags, readArguments call.words ≠ .ok (.extract flags)) →
    readArguments call.words ≠ .ok .init → (call.report parser fs).files = fs.seenFrom call.place
  /-- A catalog is written into the output directory, and nothing else changes. -/
  extracted : ∀ flags, readArguments call.words = .ok (.extract flags) →
    (call.report parser fs).exitCode = 0 →
    ∃ loaded directory content,
      Config.load (fs.seenFrom call.place) call.cwd = .ok loaded ∧
      (fs.seenFrom call.place).locate (extractOptions loaded flags call.cwd call.colored).1.outputDir =
        .ok directory ∧
      ∀ location, FileSystem.entry? (call.report parser fs).files location =
        if location = directory ++ [Catalog.fileName.text] then some (.file content)
        else fs.entry? location
  /-- The default configuration is written into the working directory, where there was none, and
  nothing else changes. -/
  created : call.Placed fs → readArguments call.words = .ok .init → (call.report parser fs).exitCode = 0 →
    fs.entry? (call.place ++ [Config.fileName.text]) = none ∧
    ∀ location, FileSystem.entry? (call.report parser fs).files location =
      if location = call.place ++ [Config.fileName.text] then some (.file Config.defaultText.toUTF8)
      else fs.entry? location

/-- One call stays within the limits. -/
theorem confined (parser : ModuleParser) (fs : FileSystem) (call : Call) : Confined parser fs call := by
  have effect : Effect (fs.seenFrom call.place) call.words call.cwd call.colored (call.report parser fs) :=
    effect_perform _ _ _ _ _
  have lookup := fs.entry?_seenFrom call.place
  refine ⟨(Kept.seenFrom fs call.place).trans effect.kept, effect.files_of_exitCode_ne_zero,
    effect.files_of_no_command, fun flags asked code => ?_, fun placed asked code => ?_⟩
  · obtain ⟨loaded, directory, content, configured, located, inserted⟩ :=
      effect.exists_of_extract asked code
    refine ⟨loaded, directory, content, configured, located, fun location => ?_⟩
    rw [FileSystem.entry?_insert? inserted, lookup]
  · obtain ⟨directory, located, absent, _, inserted⟩ := effect.exists_of_init asked code
    have named : isName Config.fileName.text = true := by decide
    have here := FileSystem.locate_join named placed.located placed.standing
    have same : directory ++ [Config.fileName.text] = call.place ++ [Config.fileName.text] :=
      Except.ok.inj (located.symm.trans here)
    rw [same] at absent inserted
    refine ⟨absent, fun location => ?_⟩
    rw [FileSystem.entry?_insert? inserted, lookup]

/-! ## Histories -/

/-- Later calls start from what the earlier ones leave. -/
theorem leave_append (parser : ModuleParser) (fs : FileSystem) (earlier later : List Call) :
    leave parser fs (earlier ++ later) = leave parser (leave parser fs earlier) later :=
  List.foldl_append

/-- What every call keeps is kept by any number of them. -/
theorem kept_leave (parser : ModuleParser) (fs : FileSystem) (calls : List Call) :
    Kept fs (leave parser fs calls) := by
  induction calls generalizing fs with
  | nil => exact Kept.refl fs
  | cons call calls ih => exact (confined parser fs call).toKept.trans (ih _)

/-- **What any history of commands can touch.** For every parser, file system and list of calls, made one
after the other with any words and from any directories: each call stays within its limits, whatever was
done before it; and from any moment of the history to its end, directories, files of other names and
configurations that are there are kept. -/
theorem history_confined (parser : ModuleParser) (fs : FileSystem) (calls : List Call) :
    (∀ earlier call later, calls = earlier ++ call :: later →
      Confined parser (leave parser fs earlier) call) ∧
    (∀ earlier later, calls = earlier ++ later →
      Kept (leave parser fs earlier) (leave parser fs calls)) := by
  constructor
  · intro earlier call later _
    exact confined parser (leave parser fs earlier) call
  · rintro earlier later rfl
    rw [leave_append]
    exact kept_leave parser (leave parser fs earlier) later

/-- What calls end with, one after the other. -/
def exitCodes (parser : ModuleParser) (fs : FileSystem) : List Call → List Nat
  | [] => []
  | call :: calls => (call.report parser fs).exitCode :: exitCodes parser (call.report parser fs).files calls

/-- A project of one file without messages. -/
def quietProject : FileSystem := .ofEntries [
  (["out"], .directory),
  (["src"], .directory),
  (["src", "a.ts"], .file "a".toUTF8)]

def initCall : Call := ⟨["init"], ⟨"/src"⟩, ["src"], false⟩

def extractCall : Call := ⟨["extract", "--output-dir", "../out"], ⟨"/src"⟩, ["src"], false⟩

/-- A configuration is created, used, and left alone when it is to be created again; then an extraction
fails, a command line is refused, and one asks for nothing. -/
def sampleCalls : List Call := [
  initCall, extractCall, initCall,
  ⟨["extract", "--output-dir=/none"], ⟨"/src"⟩, ["src"], true⟩,
  ⟨["extract", "-x"], ⟨"/"⟩, [], false⟩,
  ⟨[], ⟨"/out"⟩, ["out"], false⟩]

/-- Each of the sample calls ends as it should and stays within its limits. -/
theorem sampleCalls_confined :
    exitCodes TypeScript.parser quietProject sampleCalls = [0, 0, 1, 2, 2, 0] ∧
      initCall.Placed quietProject ∧ Confined TypeScript.parser quietProject initCall ∧
      Confined TypeScript.parser (leave TypeScript.parser quietProject [initCall]) extractCall ∧
      Kept (leave TypeScript.parser quietProject [initCall])
        (leave TypeScript.parser quietProject sampleCalls) := by
  have limits := history_confined TypeScript.parser quietProject sampleCalls
  exact ⟨by decide +kernel, ⟨by decide +kernel, by decide +kernel⟩, limits.1 [] initCall _ rfl,
    limits.1 [initCall] extractCall _ rfl, limits.2 [initCall] _ rfl⟩

end Command

end Harvest
