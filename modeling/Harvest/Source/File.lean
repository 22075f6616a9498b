import Harvest.Error
import Harvest.TypeScript.Tree

/-!
# Source files

A source file that has been read and parsed. The spans of its tree are places in its code.
-/

namespace Harvest

open TypeScript (Tree ImportBinding)

/-- A parsed source file. -/
structure SourceFile where
  /-- Its place in the order of the files. -/
  index : Nat
  path : Path
  /-- Its characters, without the byte order mark that they may start with. -/
  code : List Char
  parsed : TypeScript.Module
  /-- It only declares, so no message can be in it. -/
  isDeclaration : Bool

namespace SourceFile

/-- The text that a span covers. -/
def text (file : SourceFile) (span : Text.Span) : Except Halt String :=
  Halt.require ((Text.slice? file.code span).map String.ofList)

/-- The number of UTF-16 code units before a span. -/
def offset (file : SourceFile) (span : Text.Span) : Except Halt Nat :=
  Halt.require ((Text.divide? file.code span.start).map fun parts => Text.unitCount parts.1)

/-- The bindings of an item of a module. -/
def itemBindings : Tree → List ImportBinding
  | .node (.importDeclaration bindings) .. => bindings
  | _ => []

/-- The names that the file imports at its top level, in order. -/
def imports (file : SourceFile) : List ImportBinding := file.parsed.items.flatMap itemBindings

/-- The name under which another module exports what is called `name` here. The first binding of a
name counts. -/
def importedName? (file : SourceFile) (name : String) : Option String :=
  (file.imports.find? fun binding => binding.localName == name).map (·.importedName)

end SourceFile

end Harvest
