import Harvest.Config.Basic
import Harvest.FileSystem.Access

/-!
# Where a configuration comes from

The nearest configuration file in a directory or above it counts, but none that lies above a
repository's root.
-/

namespace Harvest.Config

/-- The name of configuration files. -/
def fileName : Path := ⟨".xliffrc.json"⟩

/-- What marks the root of a repository. -/
def repositoryMark : Path := ⟨".git"⟩

/-- The first configuration file in a list of directories, unless the root of a repository comes
first. -/
def findIn (fs : FileSystem) : List Path → Option Path
  | [] => none
  | directory :: more =>
    if fs.pathExists (directory.join fileName) then some (directory.join fileName)
    else if fs.pathExists (directory.join repositoryMark) then none
    else findIn fs more

/-- The configuration file that counts for a directory. -/
def find? (fs : FileSystem) (start : Path) : Option Path := findIn fs start.ancestors

/-- A configuration and the directory that its paths start from. -/
structure Loaded where
  config : Config
  fromFile : Bool
  baseDir : Path

/-- A path of the configuration, from the directory it starts from. -/
def Loaded.resolve (loaded : Loaded) (path : String) : Path := loaded.baseDir.join ⟨path⟩

/-- Why a configuration cannot be had. -/
inductive LoadError where
  | unreadable (cause : AccessError)
  | malformed (path : Path) (fault : Json.Fault)
  | invalid (cause : Invalid)
  deriving DecidableEq, Repr

def LoadError.message : LoadError → String
  | .unreadable cause => cause.message
  | .malformed path fault => "Failed to parse config file: " ++ path.quoted ++ ": " ++ fault.message
  | .invalid cause => cause.message

/-- Reads a configuration file. -/
def readFile (fs : FileSystem) (path : Path) : Except LoadError Config :=
  match fs.readText path with
  | .error cause => .error (.unreadable cause)
  | .ok text =>
    match parse text with
    | .error fault => .error (.malformed path fault)
    | .ok config =>
      match config.validate with
      | .error cause => .error (.invalid cause)
      | .ok () => .ok config

/-- The configuration that counts for a directory: that of a file, or the default. -/
def load (fs : FileSystem) (start : Path) : Except LoadError Loaded :=
  match find? fs start with
  | none => .ok { config := default, fromFile := false, baseDir := start }
  | some path =>
    match readFile fs path with
    | .error error => .error error
    | .ok config => .ok { config, fromFile := true, baseDir := path.parent?.getD start }

end Harvest.Config
