import Harvest.Source.File
import Harvest.Source.Scan

/-!
# Loading a project

Every source file is read and parsed; one that cannot be read or parsed fails the project. Which parser
reads the modules is left open.
-/

namespace Harvest

/-- The files of a project in their order. -/
structure SourceSet where
  root : Path
  files : List SourceFile

/-- The name of a file as seen from the project's root. -/
def SourceSet.nameOf (set : SourceSet) (file : SourceFile) : String :=
  Path.relativeName set.root file.path

namespace Source

open TypeScript (ModuleParser)

/-- Parses the text of a file. -/
def parse (parser : ModuleParser) (index : Nat) (path : Path) (text : String) :
    Except LoadError SourceFile :=
  let code := Text.dropByteOrderMark text.toList
  let isDeclaration := isDeclaration path
  match parser isDeclaration code with
  | .ok parsed => .ok { index, path, code, parsed, isDeclaration }
  | .error message => .error (.malformed path message)

/-- Reads and parses a file. -/
def loadFile (parser : ModuleParser) (fs : FileSystem) (index : Nat) (path : Path) :
    Except LoadError SourceFile :=
  match fs.readText path with
  | .ok text => parse parser index path text
  | .error cause => .error (.unreadable path cause)

/-- Reads and parses files, which are numbered from `index` on. -/
def loadFrom (parser : ModuleParser) (fs : FileSystem) :
    Nat → List Path → Except LoadError (List SourceFile)
  | _, [] => .ok []
  | index, path :: paths => do
    let file ← loadFile parser fs index path
    return file :: (← loadFrom parser fs (index + 1) paths)

/-- Loads a project. -/
def load (parser : ModuleParser) (fs : FileSystem) (root : Path) (ignore : List String) :
    Except LoadError SourceSet := do
  let paths ← scan fs root ignore
  return ⟨root, ← loadFrom parser fs 0 paths⟩

end Source

end Harvest
