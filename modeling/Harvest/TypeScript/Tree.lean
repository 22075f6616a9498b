import Harvest.Text.Span
import Harvest.TypeScript.Token

/-!
# Syntax trees

A tree is a form, the span of the source text it covers and its parts. Calls stand apart from all
other forms, since they are what the library looks for. The parts of a tree are listed in the order
in which it is visited; that is the order of the source, except that a class lists its members before
the class it extends, a property its value before its decorators, a function its parameters before
its decorators, and a `do` loop its condition before its body.
-/

namespace Harvest.TypeScript

open Harvest.Text (Span)

/-- A name that an import declaration binds in its module. -/
structure ImportBinding where
  localName : String
  importedName : String
  modulePath : String
  deriving DecidableEq, Repr

/-- What a tree other than a call is. -/
inductive Form where
  /-- An identifier, as an expression or as the target of a binding. -/
  | identifier (name : String)
  | privateName (name : String)
  | string (value : StringValue)
  /-- A template literal; its parts are the substitutions. -/
  | template
  /-- A number, a regular expression, `null`, `true` or `false`. -/
  | literal
  | this | superReference | importReference | metaProperty
  | paren
  /-- An array literal or pattern; `trailing` when a comma ends it. -/
  | array (trailing : Bool)
  | hole
  /-- An object literal or pattern; `trailing` when a comma ends it. -/
  | object (trailing : Bool)
  | shorthand (name : String)
  /-- A shorthand property with a default, which only a pattern may hold. -/
  | shorthandDefault (name : String)
  | property
  /-- A method, getter or setter of an object literal. -/
  | method
  | computedKey
  | spread
  | function | arrow | classBody
  /-- A member access; the name is given when it is a plain identifier after a dot. -/
  | member (name : Option String) (chained : Bool)
  | superMember
  /-- A construction; `applied` when it has an argument list. -/
  | construction (applied : Bool)
  | tagged
  | unary | update | binary | logical
  | conditional | sequence | await | yield
  /-- An assignment; `plain` when its operator is `=`. -/
  | assignment (plain : Bool)
  /-- An expression with a type: `e as T`, `e satisfies T`, `<T>e` or `e!`. -/
  | typed
  | constAssertion
  | instantiation
  /-- A binding pattern with a default. -/
  | bindingDefault
  | rest
  /-- A parameter: its decorators and its pattern. -/
  | parameter
  | declarator
  | expressionStatement
  | statement
  | importDeclaration (bindings : List ImportBinding)
  /-- A type that no rule tells from the others. -/
  | type
  | arrayType | tupleType | optionalType | restType
  deriving DecidableEq, Repr

/-- A syntax tree. -/
inductive Tree where
  /-- A call: `chained` inside an optional chain, its callee, its arguments (a spread argument as a
  `spread` tree) and its type arguments. -/
  | call (span : Span) (chained : Bool) (callee : Tree) (arguments types : List Tree)
  | node (form : Form) (span : Span) (parts : List Tree)

namespace Tree

/-- The stretch of source text that a tree covers. -/
def span : Tree → Span
  | .call span .. => span
  | .node _ span _ => span

/-- The form of a tree that is not a call. -/
def form? : Tree → Option Form
  | .call .. => none
  | .node form .. => some form

/-- The parts of a tree in the order of visits. -/
def parts : Tree → List Tree
  | .call _ _ callee arguments types => callee :: (arguments ++ types)
  | .node _ _ parts => parts

/-- The name of an identifier. -/
def name? : Tree → Option String
  | .node (.identifier name) .. => some name
  | _ => none

end Tree

/-- A parsed module: its items in order. -/
structure Module where
  items : List Tree

/-- Reads the module that a text is, or says what is wrong with the text. It is told whether the text is
that of a declaration file. -/
abbrev ModuleParser := Bool → List Char → Except String Module

end Harvest.TypeScript
