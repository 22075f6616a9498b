import Harvest.TypeScript.Grammar.Item

/-!
# The grammar of modules

The rules of the grammar call each other through a `Grammar`. Here the knot is tied: a grammar of
depth `n + 1` answers each rule with the help of the grammar of depth `n`. Between two nested calls
of one rule a token is taken, and there are thirteen rules, so that a depth of thirteen for each
character of the file is never used up.
-/

namespace Harvest.TypeScript

open Harvest.TypeScript.Parser

/-- What a rule reads, given how the rules below it are read. -/
def Rule.parse (g : Grammar) : Rule → Parser Tree
  | .statement declarations => Grammar.statement g declarations
  | .moduleItem => Grammar.moduleItem g
  | .assignment => Grammar.assignment g
  | .operators above => Grammar.operators g above
  | .unary => Grammar.unary g
  | .leftHandSide => Grammar.leftHandSide g
  | .constructed => Grammar.constructed g
  | .binding => Grammar.binding g
  | .type => Grammar.type g
  | .plainType => Grammar.plainType g
  | .typeOperator => Grammar.typeOperator g
  | .decorator => Grammar.decorator g

/-- The grammar up to a depth of nested rules. -/
def grammar : Nat → Grammar
  | 0, _ => refuse
  | depth + 1, rule => rule.parse (grammar depth)

/-- The items of a file up to its end. -/
def moduleItems (g : Grammar) : Parser (List Tree) :=
  many do
    if ← isAtEnd then return none
    return some (← g .moduleItem)

/-- A first line that starts with `#!` is left to the operating system. -/
def dropInterpreterLine : List Char → Nat → List Char × Nat
  | '#' :: '!' :: rest, pos =>
    let line := rest.takeWhile (!isLineTerminator ·)
    (rest.drop line.length, pos + 2 + Text.byteSize line)
  | text, pos => (text, pos)

/-- Reads a module, or refuses it. A declaration file holds declarations without implementations.
Places count the bytes after a byte order mark. -/
def Module.parse? (isDeclaration : Bool) (text : List Char) : Option Module := do
  let characters := Text.dropByteOrderMark text
  let (code, pos) := dropInterpreterLine characters 0
  let size := characters.length
  let state : State := {
    toPlace := .before code pos
    context := { declarationFile := isDeclaration, ambient := isDeclaration }
    arrowStart := none
    size }
  let (items, _) ← (moduleItems (grammar (13 * (size + 2)))).run state
  return ⟨items⟩

/-- What is said of a text that is no module. -/
def syntaxMessage : String := "<syntax>"

/-- The parser that the grammar gives. -/
def parser : ModuleParser := fun isDeclaration text =>
  match Module.parse? isDeclaration text with
  | some parsed => .ok parsed
  | none => .error syntaxMessage

end Harvest.TypeScript
