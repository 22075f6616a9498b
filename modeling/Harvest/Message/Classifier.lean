import Harvest.Message.Call

/-!
# Which calls give messages
-/

namespace Harvest

open TypeScript (Tree)

/-- Decides whether a call in a file gives a message, or says why that cannot be decided. -/
abbrev Classifier := SourceFile → CallSite → Except Halt Bool

namespace Classifier

/-- The function that gives messages unless others are named. -/
def defaultFunction : String := "i18n"

def missingText : String := "missing message text argument"

def spreadText : String := "message text cannot be a spread argument"

/-- The callee is one of the functions: by its own name, by the name it is imported under, or as a
member of that name. -/
def matchesCallee (functions : List String) (file : SourceFile) : Tree → Bool
  | .node (.identifier name) .. =>
    functions.contains name || (file.importedName? name).any functions.contains
  | .node (.member (some name) _) .. => functions.contains name
  | _ => false

/-- What is wrong with the arguments of a call that gives a message. -/
def textFault? (call : CallSite) : Option String :=
  match call.arguments.head? with
  | none => some missingText
  | some argument => if argument.isSpread then some spreadText else none

/-- Calls of the given functions give messages. Such a call needs a first argument that is not
spread. -/
def byName (functions : List String) : Classifier := fun file call =>
  match call.callee with
  | none => .ok false
  | some callee =>
    if !matchesCallee functions file callee then .ok false
    else
      match textFault? call with
      | some fault => do
        let offset ← file.offset call.span
        .error (.failure (.classification file.path.text offset fault))
      | none => .ok true

end Classifier

end Harvest
