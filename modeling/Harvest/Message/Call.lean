import Harvest.Source.File

/-!
# Calls

What the search for messages sees of a call: where it stands, what is called, and its arguments.
-/

namespace Harvest

open TypeScript (Tree)

/-- An argument of a call. -/
structure Argument where
  value : Tree
  isSpread : Bool

/-- An argument as the tree of a call holds it. -/
def Argument.ofTree : Tree → Argument
  | .node .spread _ [value] => ⟨value, true⟩
  | value => ⟨value, false⟩

/-- A string, or a template without substitutions. -/
def isStringLiteral : Tree → Bool
  | .node (.string _) .. => true
  | .node .template _ parts => parts.isEmpty
  | _ => false

/-- A call. -/
structure CallSite where
  span : Text.Span
  /-- It belongs to an optional chain. -/
  isOptional : Bool
  /-- What is called, unless it is `super` or `import`. -/
  callee : Option Tree
  arguments : List Argument

namespace CallSite

/-- What is called, if it is an expression. -/
def calleeOf (callee : Tree) : Option Tree :=
  match callee.form? with
  | some .superReference | some .importReference => none
  | _ => some callee

/-- The call that a tree is. -/
def ofCall (span : Text.Span) (chained : Bool) (callee : Tree) (arguments : List Tree) : CallSite where
  span := span
  isOptional := chained
  callee := calleeOf callee
  arguments := arguments.map Argument.ofTree

/-- The argument at a position, unless it is spread. -/
def plainArgument? (call : CallSite) (position : Nat) : Option Tree :=
  match call.arguments[position]? with
  | some ⟨value, false⟩ => some value
  | _ => none

/-- The span of the argument at a position, spread or not. -/
def argumentSpan? (call : CallSite) (position : Nat) : Option Text.Span :=
  call.arguments[position]?.map (·.value.span)

/-! ## Positions of a message's parts -/

def textPosition : Nat := 0
def descriptionPosition : Nat := 1
def meaningPosition : Nat := 2
def idPosition : Nat := 3

end CallSite

mutual

/-- The calls of a tree: each before those inside of it, in the order of visits. -/
def callsOf : Tree → List CallSite
  | .call span chained callee arguments types =>
    CallSite.ofCall span chained callee arguments ::
      (callsOf callee ++ callsOfAll arguments ++ callsOfAll types)
  | .node _ _ parts => callsOfAll parts

/-- The calls of several trees, one after the other. -/
def callsOfAll : List Tree → List CallSite
  | [] => []
  | tree :: more => callsOf tree ++ callsOfAll more

end

/-- The calls of a file. -/
def SourceFile.calls (file : SourceFile) : List CallSite := callsOfAll file.parsed.items

end Harvest
