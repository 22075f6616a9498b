import Harvest.Error
import Harvest.FileSystem.Walk
import Harvest.Glob

/-!
# The files of a project

All files below the project's root that end in `.ts`, without those that are to be ignored, in the
order of a walk.
-/

namespace Harvest

/-- What the user wants ignored. -/
inductive IgnoreRule where
  /-- A path and all below it. -/
  | below (path : Path)
  | matching (glob : Glob.Pattern)
  deriving DecidableEq, Repr

namespace IgnoreRule

/-- Reads an entry of the ignore list: a pattern if it has a wildcard, a path below the root
otherwise. -/
def parse (root : Path) (entry : String) : Except LoadError IgnoreRule :=
  if Glob.hasWildcard entry then
    match Glob.compile entry with
    | .ok glob => .ok (.matching glob)
    | .error fault => .error (.invalidPattern entry fault.message)
  else .ok (.below (root.join ⟨entry⟩))

/-- Reads an ignore list; the first entry that is no pattern fails. -/
def parseAll (root : Path) : List String → Except LoadError (List IgnoreRule)
  | [] => .ok []
  | entry :: more => do
    let rule ← parse root entry
    return rule :: (← parseAll root more)

/-- The rule ignores a path. A pattern is tried on the whole path and on the path as seen from the
root. -/
def ignores (root : Path) (rule : IgnoreRule) (path : Path) : Bool :=
  match rule with
  | .below base => path.startsWith base
  | .matching glob => glob.matches path.text || glob.matches (Path.relativeName root path)

end IgnoreRule

namespace Source

/-- The ending of source files. -/
def suffix : String := ".ts"

/-- The ending of declaration files, which are source files too. -/
def declarationSuffix : String := ".d.ts"

def isSource (path : Path) : Bool := suffix.toList.isSuffixOf path.text.toList

def isDeclaration (path : Path) : Bool := declarationSuffix.toList.isSuffixOf path.text.toList

/-- A file belongs to a project if it is a source file and no rule ignores it. -/
def belongs (root : Path) (rules : List IgnoreRule) (path : Path) : Bool :=
  isSource path && !rules.any fun rule => rule.ignores root path

/-- The source files of a project, of which there must be one, where directories list their names as
given. -/
def scanBy (listing : Listing) (fs : FileSystem) (root : Path) (ignore : List String) :
    Except LoadError (List Path) := do
  if !fs.isDirectory root then throw (.missingRoot root)
  let rules ← IgnoreRule.parseAll root ignore
  let files := (fs.filesIn listing root).filter (belongs root rules)
  if files.isEmpty then throw (.noSourceFiles root)
  return files

/-- The source files of a project. -/
def scan (fs : FileSystem) (root : Path) (ignore : List String) : Except LoadError (List Path) :=
  scanBy fs.names fs root ignore

end Source

end Harvest
