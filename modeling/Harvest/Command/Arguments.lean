import Harvest.Path

/-!
# Command lines

A command line names a command, `extract` or `init`, and gives it options. Options stand alone or take
a value, as the next word or behind an equals sign.
-/

namespace Harvest.Command

/-- The options of `extract`. What is given here counts more than the configuration. -/
structure ExtractFlags where
  projectDir : Option Path := none
  outputDir : Option Path := none
  sourceLang : Option String := none
  ignore : List String := []
  functions : List String := []
  verbose : Bool := false
  deriving DecidableEq, Repr

/-- What a command line asks for. -/
inductive Invocation where
  | nothing
  | extract (flags : ExtractFlags)
  | init
  deriving DecidableEq, Repr

/-- How a command line ends before any command is run. -/
inductive Usage where
  | displayHelp
  | displayVersion
  | unknownArgument
  | invalidSubcommand
  | invalidValue
  | argumentConflict
  | tooManyValues
  deriving DecidableEq, Repr

/-- To be shown something is no failure. -/
def Usage.exitCode : Usage → Nat
  | .displayHelp | .displayVersion => 0
  | _ => 2

/-! ## Words -/

/-- A word of a command line. -/
inductive Word where
  /-- Two dashes: no options behind it. -/
  | escape
  | long (name : String) (value : Option String)
  | short (letters : List Char)
  | plain (text : String)
  deriving DecidableEq, Repr

/-- Divides the text of a long option at its first equals sign. -/
def Word.ofLong (text : List Char) : Word :=
  let name := text.takeWhile (· != '=')
  match text.drop name.length with
  | [] => .long (String.ofList name) none
  | _ :: value => .long (String.ofList name) (some (String.ofList value))

/-- The word that a text is. A single dash is plain. -/
def Word.ofText (text : String) : Word :=
  match text.toList with
  | ['-', '-'] => .escape
  | '-' :: '-' :: rest => .ofLong rest
  | ['-'] => .plain text
  | '-' :: letters => .short letters
  | _ => .plain text

/-! ## Options of `extract` -/

/-- An option that takes a value. -/
inductive ValueOption where
  | projectDir
  | outputDir
  | sourceLang
  | ignore
  | function
  deriving DecidableEq, Repr

def ValueOption.ofName? : String → Option ValueOption
  | "project-dir" => some .projectDir
  | "output-dir" => some .outputDir
  | "source-lang" => some .sourceLang
  | "ignore" => some .ignore
  | "function" => some .function
  | _ => none

/-- A path as an option's value, which must not be empty. -/
def pathValue (present : Option Path) (value : String) : Except Usage (Option Path) :=
  if present.isSome then .error .argumentConflict
  else if value.isEmpty then .error .invalidValue
  else .ok (some ⟨value⟩)

/-- Sets an option to its value. Patterns and functions may be given again and again. -/
def ExtractFlags.set (flags : ExtractFlags) (option : ValueOption) (value : String) :
    Except Usage ExtractFlags := do
  match option with
  | .projectDir => return { flags with projectDir := ← pathValue flags.projectDir value }
  | .outputDir => return { flags with outputDir := ← pathValue flags.outputDir value }
  | .sourceLang =>
    if flags.sourceLang.isSome then throw .argumentConflict
    return { flags with sourceLang := some value }
  | .ignore => return { flags with ignore := flags.ignore ++ [value] }
  | .function => return { flags with functions := flags.functions ++ [value] }

/-- What has been read of the options: those that are set, and one whose value may still come. -/
structure Progress where
  flags : ExtractFlags := {}
  pending : Option (ValueOption × Option String) := none

/-- Sets the option that is still open. It must have got its value. -/
def Progress.settle (progress : Progress) : Except Usage ExtractFlags :=
  match progress.pending with
  | none => .ok progress.flags
  | some (_, none) => .error .invalidValue
  | some (option, some value) => progress.flags.set option value

def Progress.setVerbose (progress : Progress) : Except Usage Progress := do
  let flags ← progress.settle
  if flags.verbose then throw .argumentConflict
  return { flags := { flags with verbose := true } }

/-- Asks for help, once the open option is set. -/
def Progress.askHelp (progress : Progress) : Except Usage Progress := do
  let _ ← progress.settle
  throw .displayHelp

/-- Reads letters behind one dash. -/
def readLetters : List Char → Progress → Except Usage Progress
  | [], progress => .ok progress
  | letter :: letters, progress => do
    if letter == 'v' then readLetters letters (← progress.setVerbose)
    else if letter == 'h' then readLetters letters (← progress.askHelp)
    else throw .unknownArgument

/-- Reads an option behind two dashes. -/
def readLong (name : String) (value : Option String) (progress : Progress) :
    Except Usage Progress := do
  match ValueOption.ofName? name, value with
  | some option, some value =>
    let flags ← progress.settle
    return { flags := ← flags.set option value }
  | some option, none =>
    let flags ← progress.settle
    return { flags, pending := some (option, none) }
  | none, value =>
    if name == "verbose" || name == "help" then
      if value.isSome then throw .tooManyValues
      if name == "verbose" then progress.setVerbose else progress.askHelp
    else throw .unknownArgument

/-- Reads the options of `extract`. -/
def readExtract : List String → Progress → Except Usage ExtractFlags
  | [], progress => progress.settle
  | text :: more, progress =>
    match Word.ofText text with
    | .escape => if more.isEmpty then progress.settle else .error .unknownArgument
    | .long name value => do readExtract more (← readLong name value progress)
    | .short letters => do readExtract more (← readLetters letters progress)
    | .plain value =>
      match progress.pending with
      | some (option, none) => readExtract more { progress with pending := some (option, some value) }
      | _ => .error .unknownArgument

/-! ## Commands -/

/-- Reads the words behind `init`, which takes no options. -/
def readInit : List String → Except Usage Unit
  | [] => .ok ()
  | text :: more =>
    match Word.ofText text with
    | .escape => if more.isEmpty then .ok () else .error .unknownArgument
    | .long "help" none => .error .displayHelp
    | .long "help" (some _) => .error .tooManyValues
    | .short ('h' :: _) => .error .displayHelp
    | _ => .error .unknownArgument

/-- The names of the commands. -/
def names : List String := ["extract", "init", "help"]

/-- Help is given on the program or on one of its commands. -/
def readHelp : List String → Usage
  | [] => .displayHelp
  | [name] => if names.contains name then .displayHelp else .invalidSubcommand
  | _ => .invalidSubcommand

/-- What an option in front of any command leads to. -/
def readOuter (word : Word) : Usage :=
  match word with
  | .long name value =>
    if name == "help" || name == "version" then
      if value.isSome then .tooManyValues
      else if name == "help" then .displayHelp else .displayVersion
    else .unknownArgument
  | .short ('h' :: _) => .displayHelp
  | .short ('V' :: _) => .displayVersion
  | .short _ => .unknownArgument
  | _ => .invalidSubcommand

/-- Reads a command line. -/
def readArguments : List String → Except Usage Invocation
  | [] => .ok .nothing
  | "extract" :: more => do return .extract (← readExtract more {})
  | "init" :: more => do
    readInit more
    return .init
  | "help" :: more => .error (readHelp more)
  | ["--"] => .ok .nothing
  | "--" :: text :: _ =>
    .error (if names.contains text then .unknownArgument else .invalidSubcommand)
  | text :: _ => .error (readOuter (Word.ofText text))

end Harvest.Command
