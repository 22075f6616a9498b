import Harvest.Glob
import Harvest.Json.Reader
import Harvest.Message.Classifier
import Harvest.Text.Blank

/-!
# Configurations

A configuration is read from JSON: an object whose fields may be left out, or a list of the fields'
values in their order, of which the last ones may be left out.
-/

namespace Harvest

/-- The settings of an extraction. -/
structure Config where
  projectDir : String := "."
  outputDir : String := "."
  sourceLang : String := "en"
  ignore : List String := []
  functions : List String := [Classifier.defaultFunction]
  deriving DecidableEq, Repr

namespace Config

/-- The configuration with all fields left out. -/
def default : Config := {}

/-- The text of the default configuration. -/
def defaultText : String :=
  "\x7b\n  \"projectDir\": \".\",\n  \"outputDir\": \".\",\n  \"sourceLang\": \"en\",\n" ++
  "  \"ignore\": [],\n  \"functions\": [\n    \"i18n\"\n  ]\n\x7d"

/-! ## Reading -/

/-- The fields that have been read. -/
structure Draft where
  projectDir : Option String := none
  outputDir : Option String := none
  sourceLang : Option String := none
  ignore : Option (List String) := none
  functions : Option (List String) := none

/-- The configuration that the fields make up; missing ones have their defaults. -/
def Draft.complete (draft : Draft) : Config where
  projectDir := draft.projectDir.getD default.projectDir
  outputDir := draft.outputDir.getD default.outputDir
  sourceLang := draft.sourceLang.getD default.sourceLang
  ignore := draft.ignore.getD default.ignore
  functions := draft.functions.getD default.functions

/-- A value behind its key, for a field that has none yet. -/
def fieldValue {α : Type} (present : Option α) (value : Json.Reader α) : Json.Reader (Option α) := do
  if present.isSome then throw .mismatch
  Json.colon
  return some (← value)

/-- Reads the value of a key. Unknown keys are skipped. -/
def readField (draft : Draft) (key : String) : Json.Reader Draft := do
  match key with
  | "projectDir" => return { draft with projectDir := ← fieldValue draft.projectDir Json.string }
  | "outputDir" => return { draft with outputDir := ← fieldValue draft.outputDir Json.string }
  | "sourceLang" => return { draft with sourceLang := ← fieldValue draft.sourceLang Json.string }
  | "ignore" => return { draft with ignore := ← fieldValue draft.ignore (Json.list Json.string) }
  | "functions" =>
    return { draft with functions := ← fieldValue draft.functions (Json.list Json.string) }
  | _ =>
    Json.colon
    Json.skipValue
    return draft

/-- Reads the fields of an object, at most `bound` of them, to its closing brace. -/
def readFields : (bound : Nat) → (isFirst : Bool) → Draft → Json.Reader Draft
  | 0, _, _ => throw .malformed
  | bound + 1, isFirst, draft => do
    match ← Json.nextKey? isFirst with
    | none =>
      Json.drop
      return draft
    | some key => readFields bound false (← readField draft key)

/-- The next value of a list of fields, unless the list has ended. -/
def nextField {α : Type} (isFirst : Bool) (value : Json.Reader α) : Json.Reader (Option α) := do
  if ← Json.nextElement isFirst then return some (← value) else return none

/-- Reads the fields from a list behind its opening bracket. -/
def readList : Json.Reader Draft := do
  let projectDir ← nextField true Json.string
  let outputDir ← nextField projectDir.isNone Json.string
  let sourceLang ← nextField outputDir.isNone Json.string
  let ignore ← nextField sourceLang.isNone (Json.list Json.string)
  let functions ← nextField ignore.isNone (Json.list Json.string)
  Json.closeList
  return { projectDir, outputDir, sourceLang, ignore, functions }

/-- Reads a configuration. -/
def read : Json.Reader Config := do
  match ← Json.peek with
  | none => throw .truncated
  | some c =>
    if c == '[' then
      Json.drop
      return (← readList).complete
    else if c == '\x7b' then
      Json.drop
      return (← readFields ((← get).length + 1) true {}).complete
    else Json.mismatch

/-- The configuration that a text holds. -/
def parse (text : String) : Except Json.Fault Config := do
  let reader : Json.Reader Config := do
    let config ← read
    Json.finish
    return config
  return (← reader.run text.toList).1

/-! ## Validity -/

/-- What is wrong with the values of a configuration. -/
inductive Invalid where
  | pattern (entry : String) (fault : Glob.Fault)
  | sourceLang
  | functions
  deriving DecidableEq, Repr

def Invalid.message : Invalid → String
  | .pattern entry fault =>
    "Invalid glob pattern in 'ignore': \"" ++ entry ++ "\": " ++ fault.message
  | .sourceLang => "'sourceLang' must not be empty"
  | .functions => "'functions' must name at least one i18n function"

/-- The patterns of an ignore list can be compiled; the first one that cannot is named. -/
def validatePatterns : List String → Except Invalid Unit
  | [] => .ok ()
  | entry :: more =>
    if Glob.hasWildcard entry then
      match Glob.compile entry with
      | .ok _ => validatePatterns more
      | .error fault => .error (.pattern entry fault)
    else validatePatterns more

/-- The values of a configuration can be used. -/
def validate (config : Config) : Except Invalid Unit := do
  validatePatterns config.ignore
  if Text.isBlank config.sourceLang then throw .sourceLang
  if config.functions.all Text.isBlank then throw .functions

end Config

end Harvest
