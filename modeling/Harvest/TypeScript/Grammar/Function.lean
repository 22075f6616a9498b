import Harvest.TypeScript.Grammar.Parameter

/-!
# Functions

Everything after the name of a function: type parameters, parameters, result type and body.
-/

namespace Harvest.TypeScript.Grammar

open Harvest.TypeScript.Parser

/-- Statements between braces. -/
def block (g : Grammar) : Parser Tree := do
  let place ← start
  expect .braceLeft
  let statements ← many do
    if ← isAt .braceRight then return none
    return some (← g (.statement true))
  expect .braceRight
  build place .statement statements

/-- The directives at the start of a body: statements that are only a string. -/
def directives (statements : List Tree) : List StringValue :=
  (statements.map fun
    | .node .expressionStatement _ [.node (.string value) ..] => some value
    | _ => none).takeWhile Option.isSome |>.filterMap id

/-- The directive that asks for strict code. -/
def useStrict : StringValue := "use strict".toList.map Char.toNat

/-- The context of a function's body. -/
def enterFunction (isAsync isGenerator isArrow : Bool) (c : Context) : Context :=
  { c with
    inAsync := isAsync
    inGenerator := isGenerator
    inFunction := true
    hasNewTarget := c.hasNewTarget || !isArrow
    inStaticBlock := false
    breakable := false
    continuable := false
    allowsUsing := true
    labels := [] }

/-- The context of a body in braces, where nothing of the expression around it counts. -/
def enterBraces (c : Context) : Context :=
  { c with withoutIn := false, inLoopHead := false, inConditional := false, expectsColon := false }

/-- A body in braces. Strict code must not be asked for where the parameters are more than a list of
identifiers. -/
def bracedBody (g : Grammar) (isSimple : Bool) : Parser Tree := do
  let body ← within enterBraces (block g)
  mistakeIf (!isSimple && (directives body.parts).contains useStrict)
  return body

/-- The body of a function, which overloads and declarations leave out. -/
def functionBody (g : Grammar) (isAsync isGenerator isSimple : Bool) : Parser (Option Tree) := do
  let opens ← isAt .braceLeft
  mistakeIf (opens && (← context).ambient)
  within (enterFunction isAsync isGenerator false) do
    if !opens && (← eatSemicolon) then return none
    return some (← bracedBody g isSimple)

/-- The body of an arrow function: braces or an expression. -/
def arrowBody (g : Grammar) (isAsync isSimple : Bool) : Parser Tree := do
  let opens ← isAt .braceLeft
  mistakeIf (opens && (← context).ambient)
  within (enterFunction isAsync false true) do
    if opens then bracedBody g isSimple else g .assignment

/-- A function after its name. -/
structure FunctionRest where
  parameters : List Tree
  body : Option Tree
  types : List Tree

/-- The parts of a function in the order of visits: parameters, decorators, body, types. -/
def FunctionRest.parts (rest : FunctionRest) (decorating : List Tree := []) : List Tree :=
  rest.parameters ++ decorating ++ rest.body.toList ++ rest.types

/-- A function after its name. A function without a body has no defaults. -/
def functionRest (g : Grammar) (parameters : Parser (List Tree)) (isAsync isGenerator : Bool) :
    Parser FunctionRest := do
  let enter (c : Context) : Context := { enterBraces c with
    inAsync := isAsync, inGenerator := isGenerator, inField := false }
  within enter do
    let typeParams ← typeParameters? g false true
    expect .parenLeft
    let params ← within (fun c => { c with inParameters := true, inFunction := false }) parameters
    expect .parenRight
    let result ← if ← isAt .colon then pure [← resultType g .colon] else pure []
    let body ← functionBody g isAsync isGenerator (isSimpleList params)
    mistakeIf (body.isNone && params.any (parameterHasForm .bindingDefault))
    return ⟨params, body, typeParams ++ result⟩

/-- A parameter other than `this`. -/
def countsAsParameter (parameter : Tree) : Bool :=
  !(parameterPattern parameter).any fun pattern => pattern.name? == some "this"

/-- A getter takes no parameters. -/
def getterParameters (g : Grammar) : Parser (List Tree) := do
  let params ← formalParameters g
  mistakeIf (params.any countsAsParameter)
  return params

/-- A setter takes one parameter, which is no rest. -/
def setterParameters (g : Grammar) : Parser (List Tree) := do
  let params ← formalParameters g
  mistakeIf ((params.filter countsAsParameter).length != 1)
  mistakeIf (params.head?.any (parameterHasForm .rest))
  return params

/-- The name of a function or class, which expressions and default exports may leave out. -/
def optionalName (required : Bool) : Parser (Option Tree) := do
  if required then return some (← boundIdentifier)
  if (← isAtName) || (← isAtWord "this") then return some (← boundIdentifier)
  return none

/-- A function from the word `function` on. -/
def functionAfterAsync (g : Grammar) (place : Nat) (isAsync : Bool) (form : Form)
    (requiresName requiresBody : Bool) (decorating : List Tree) : Parser Tree := do
  expectWord "function"
  let isGenerator ← eat .star
  let name ← within (fun c => { c with inField := false }) (optionalName requiresName)
  let rest ← functionRest g (formalParameters g) isAsync isGenerator
  if requiresBody && rest.body.isNone then refuse
  build place form (name.toList ++ rest.parts decorating)

/-- A function, possibly asynchronous. -/
def functionFrom (g : Grammar) (form : Form) (requiresName requiresBody : Bool)
    (decorating : List Tree) : Parser Tree := do
  let place ← start
  let isAsync ← eatWord "async"
  functionAfterAsync g place isAsync form requiresName requiresBody decorating

/-- The word `async` stands here before `function` on the same line. -/
def isAtAsyncFunction : Parser Bool := do
  if !(← isAtWord "async") then return false
  let following ← next
  return following.token == .word "function" && !following.afterNewline

end Harvest.TypeScript.Grammar
