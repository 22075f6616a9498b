import Harvest.FileSystem.Access

/-!
# Failures

Each failure ends the run it occurs in. A failure is a cause with what belongs to it; its wording is in
`message`. An extraction that cuts a text where none can be cut does not even fail: it breaks down.
-/

namespace Harvest

/-- Why the source files cannot be had. -/
inductive LoadError where
  | missingRoot (path : Path)
  | noSourceFiles (path : Path)
  | invalidPattern (pattern message : String)
  | unreadable (path : Path) (cause : AccessError)
  | malformed (path : Path) (message : String)
  deriving DecidableEq, Repr

def LoadError.message : LoadError → String
  | .missingRoot path => "project directory does not exist: " ++ path.text
  | .noSourceFiles path => "no source files found under " ++ path.text
  | .invalidPattern pattern message => "invalid ignore pattern \"" ++ pattern ++ "\": " ++ message
  | .unreadable path cause => "failed to read " ++ path.text ++ ": " ++ cause.message
  | .malformed path message => "failed to parse " ++ path.text ++ ": " ++ message

/-- Why the catalog cannot be written. -/
inductive WriteError where
  | missingDirectory (path : Path)
  | unwritable (path : Path) (cause : AccessError)
  deriving DecidableEq, Repr

def WriteError.message : WriteError → String
  | .missingDirectory path => "output directory does not exist: " ++ path.text
  | .unwritable path cause => "failed to write " ++ path.text ++ ": " ++ cause.message

/-- Why an extraction fails. A call is named by its file and its offset in it. -/
inductive ExtractError where
  | load (error : LoadError)
  /-- It cannot be told whether a call gives a message. -/
  | classification (file : String) (offset : Nat) (message : String)
  /-- The message of a call can get no id. -/
  | derivation (file : String) (offset : Nat) (message : String)
  | write (error : WriteError)
  deriving DecidableEq, Repr

namespace ExtractError

def message : ExtractError → String
  | .load error => error.message
  | .classification file offset message =>
    file ++ ":" ++ toString offset ++ ": cannot classify call: " ++ message
  | .derivation file offset message =>
    file ++ ":" ++ toString offset ++ ": cannot derive message id: " ++ message
  | .write error => error.message

/-- The same failure, with the call's file under another name. -/
def inFile (error : ExtractError) (file : String) : ExtractError :=
  match error with
  | .classification _ offset message => .classification file offset message
  | .derivation _ offset message => .derivation file offset message
  | other => other

/-- What lies behind a failure, in the system's words. -/
def causes : ExtractError → List String
  | .load (.unreadable _ cause) => [cause.message]
  | .write (.unwritable _ cause) => [cause.message]
  | _ => []

end ExtractError

/-- How an extraction ends early: with a failure that it reports, or in a breakdown, of which it says
nothing. -/
inductive Halt where
  | failure (error : ExtractError)
  | breakdown
  deriving DecidableEq, Repr

namespace Halt

/-- The same, with the call's file under another name. -/
def inFile (halt : Halt) (file : String) : Halt :=
  match halt with
  | .failure error => .failure (error.inFile file)
  | .breakdown => .breakdown

/-- What has to be there. Without it the extraction breaks down. -/
def require {α : Type} : Option α → Except Halt α
  | some given => .ok given
  | none => .error .breakdown

end Halt

end Harvest
