import Harvest.Command.Arguments
import Harvest.Config.Load
import Harvest.Run

/-!
# Commands

What each command does to a file system and what it says.
-/

namespace Harvest.Command

/-! ## Creating a configuration -/

/-- Why no configuration can be created. -/
structure InitError where
  path : Path
  cause : AccessError
  deriving DecidableEq, Repr

def InitError.message (error : InitError) : String :=
  "Failed to write " ++ error.path.text ++ ": " ++ error.cause.message

/-- Creates the default configuration in a directory, unless there is one. The answer says whether it
was created. -/
def init (fs : FileSystem) (directory : Path) : Except InitError (Bool × FileSystem) :=
  let path := directory.join Config.fileName
  if fs.pathExists path then .ok (false, fs)
  else
    match fs.writeText path Config.defaultText with
    | .ok changed => .ok (true, changed)
    | .error cause => .error ⟨path, cause⟩

/-! ## Extracting -/

/-- The configuration with the options in place of its fields. -/
def ExtractFlags.override (flags : ExtractFlags) (config : Config) : Config :=
  { config with
    sourceLang := flags.sourceLang.getD config.sourceLang
    ignore := if flags.ignore.isEmpty then config.ignore else flags.ignore
    functions := if flags.functions.isEmpty then config.functions else flags.functions }

/-- Why `extract` does not succeed. -/
inductive ExtractFailure where
  | config (error : Config.LoadError)
  | invalid (cause : Config.Invalid)
  | extraction (projectDir : Path) (error : ExtractError)
  | breakdown
  deriving DecidableEq, Repr

/-- What an extraction halted with, as the command knows it. -/
def ExtractFailure.ofHalt (projectDir : Path) : Halt → ExtractFailure
  | .failure error => .extraction projectDir error
  | .breakdown => .breakdown

/-- A failure and what lies behind it. A breakdown has no words. -/
def ExtractFailure.message? : ExtractFailure → Option String
  | .config error => some error.message
  | .invalid cause => some cause.message
  | .extraction projectDir error =>
    some (": ".intercalate (("Extraction from " ++ projectDir.text ++ " failed") :: error.message ::
      error.causes))
  | .breakdown => none

/-- How the program ends after a failure. The system gives the code of a program that breaks down. -/
def ExtractFailure.exitCode : ExtractFailure → Nat
  | .breakdown => 101
  | _ => 2

/-- What an extraction is to do, and the functions that give messages. Paths on the command line start
from the working directory. -/
def extractOptions (loaded : Config.Loaded) (flags : ExtractFlags) (cwd : Path) (colored : Bool) :
    Options × List String :=
  let config := flags.override loaded.config
  ({ projectDir := (flags.projectDir.map cwd.join).getD (loaded.resolve config.projectDir)
     outputDir := (flags.outputDir.map cwd.join).getD (loaded.resolve config.outputDir)
     sourceLang := config.sourceLang
     ignore := config.ignore
     verbose := flags.verbose
     colored }, config.functions)

/-- How `extract` ends. -/
structure ExtractOutcome where
  log : List String
  result : Except ExtractFailure Summary
  files : FileSystem

def defaultsLine : String := "Note: No .xliffrc.json found, using default configuration"

/-- Extracts messages as the configuration and the options say. -/
def extract (parser : TypeScript.ModuleParser) (fs : FileSystem) (flags : ExtractFlags) (cwd : Path)
    (colored : Bool) : ExtractOutcome :=
  match Config.load fs cwd with
  | .error error => { log := [], result := .error (.config error), files := fs }
  | .ok loaded =>
    let noted := if flags.verbose && !loaded.fromFile then [defaultsLine] else []
    match (flags.override loaded.config).validate with
    | .error cause => { log := noted, result := .error (.invalid cause), files := fs }
    | .ok () =>
      let (options, functions) := extractOptions loaded flags cwd colored
      let outcome := Harvest.run parser fs options
        { classify := .byName functions, identify := .byDigest }
      { log := noted ++ outcome.log
        result := outcome.result.mapError (.ofHalt options.projectDir)
        files := outcome.files }

/-! ## What is said -/

/-- What a command leaves behind. -/
structure Report where
  exitCode : Nat
  stdout : String
  stderr : String
  files : FileSystem

/-- Lines, each with its end. -/
def lines (texts : List String) : String := String.join (texts.map (· ++ "\n"))

/-- The line of a failure. -/
def failureLine (message : String) : String := "Error: " ++ message

def successMark (colored : Bool) : String := Text.Style.green.apply colored "✓"

def failureMark (colored : Bool) : String := Text.Style.red.apply colored "✘"

/-- A number of things, in the singular or the plural. -/
def counted (count : Nat) (one many : String) : String :=
  toString count ++ " " ++ if count = 1 then one else many

/-- What is said of a finished extraction. -/
def summaryLine (colored : Bool) (summary : Summary) : String :=
  let text := "Extracted " ++
    counted summary.messageCount "translation unit" "translation units" ++ " from " ++
    counted summary.fileCount "source file" "source files" ++ " into " ++ summary.catalogPath.text
  successMark colored ++ " " ++ Text.Style.green.apply colored text

/-- What is said of a configuration that was or was not created. -/
def initLine (colored created : Bool) : String :=
  if created then
    successMark colored ++ " " ++ Text.Style.green.apply colored ("Created " ++ Config.fileName.text)
  else failureMark colored ++ " " ++ Config.fileName.text ++ " already exists"

/-- What is said when no command is given. -/
def helpText : String := lines [
  "Extract i18n messages from TypeScript sources into an XLIFF 1.2 catalog",
  "",
  "Usage: xliff-extract [COMMAND]",
  "",
  "Commands:",
  "  extract  Extract i18n messages from TypeScript sources into an XLIFF catalog",
  "  init     Initialize a new .xliffrc.json configuration file",
  "  help     Print this message or the help of the given subcommand(s)",
  "",
  "Options:",
  "  -h, --help     Print help",
  "  -V, --version  Print version"]

/-- Runs `extract` and reports on it. What the system says of a breakdown is left out. -/
def reportExtract (parser : TypeScript.ModuleParser) (fs : FileSystem) (flags : ExtractFlags) (cwd : Path)
    (colored : Bool) : Report :=
  let outcome := extract parser fs flags cwd colored
  match outcome.result with
  | .ok summary => {
      exitCode := 0
      stdout := lines [summaryLine colored summary]
      stderr := lines outcome.log
      files := outcome.files }
  | .error failure => {
      exitCode := failure.exitCode
      stdout := ""
      stderr := lines (outcome.log ++ failure.message?.toList.map failureLine)
      files := outcome.files }

/-- Runs `init` and reports on it. A configuration that is there is left alone, which is no success. -/
def reportInit (fs : FileSystem) (cwd : Path) (colored : Bool) : Report :=
  match init fs cwd with
  | .ok (created, changed) => {
      exitCode := if created then 0 else 1
      stdout := ""
      stderr := lines [initLine colored created]
      files := changed }
  | .error error => {
      exitCode := 2
      stdout := ""
      stderr := lines [failureLine error.message]
      files := fs }

/-- Runs a command and reports on it. -/
def report (parser : TypeScript.ModuleParser) (fs : FileSystem) (invocation : Invocation) (cwd : Path)
    (colored : Bool) : Report :=
  match invocation with
  | .nothing => { exitCode := 0, stdout := helpText, stderr := "", files := fs }
  | .extract flags => reportExtract parser fs flags cwd colored
  | .init => reportInit fs cwd colored

/-! ## Command lines -/

/-- What is said of a command line that asks for no command. -/
def Usage.text : Usage → String
  | .displayHelp => helpText
  | .displayVersion => "xliff-extract 0.1.0\n"
  | .unknownArgument => "error: unexpected argument found\n"
  | .invalidSubcommand => "error: unrecognized subcommand\n"
  | .invalidValue => "error: a value is required\n"
  | .argumentConflict => "error: an argument cannot be used multiple times\n"
  | .tooManyValues => "error: unexpected value found\n"

/-- Reports on a command line that asks for no command. -/
def Usage.report (usage : Usage) (fs : FileSystem) : Report where
  exitCode := usage.exitCode
  stdout := if usage.exitCode = 0 then usage.text else ""
  stderr := if usage.exitCode = 0 then "" else usage.text
  files := fs

/-- Runs a command line and reports on it. -/
def perform (parser : TypeScript.ModuleParser) (fs : FileSystem) (words : List String) (cwd : Path)
    (colored : Bool) : Report :=
  match readArguments words with
  | .error usage => usage.report fs
  | .ok invocation => report parser fs invocation cwd colored

end Harvest.Command
