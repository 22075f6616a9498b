import Harvest.TypeScript.Parser

/-!
# Names, keys, arguments and annotations

The small pieces that types, patterns, functions and expressions share.
-/

namespace Harvest.TypeScript.Grammar

open Harvest.TypeScript.Parser

/-! ## Names -/

/-- Any word, keywords included. -/
def identifierName : Parser Tree := do
  let place ← start
  match ← word? with
  | none => refuse
  | some name =>
    advance
    build place (.identifier name)

/-- An identifier. Module code keeps the strict words back, and `await` outside of ambient
declarations; `this` is an identifier where it names a parameter. -/
def identifier : Parser Tree := do
  let tree ← identifierName
  match tree.name? with
  | none => refuse
  | some name =>
    mistakeIf (strictWords.contains name)
    if name == "await" && !(← context).ambient then refuse
    if keywords.contains name && name != "this" then refuse
    mistakeIf (name == "arguments" && (← context).inField)
    return tree

/-- An identifier that is bound: not `eval` and not `arguments`. -/
def boundIdentifier : Parser Tree := do
  let tree ← identifier
  mistakeIf (tree.name?.any isRestricted)
  return tree

/-- A word or a private name after a dot. -/
def memberName : Parser (Tree × Option String) := do
  match ← token with
  | .privateName name =>
    let place ← start
    advance
    return (← build place (.privateName name), none)
  | _ =>
    let tree ← identifierName
    return (tree, tree.name?)

/-- A string literal; octal escapes are a mistake in module code. -/
def stringLiteral : Parser Tree := do
  let place ← start
  match ← token with
  | .string value octal =>
    mistakeIf octal
    advance
    build place (.string value)
  | _ => refuse

/-- A numeric literal; a superfluous leading zero is a mistake in module code. -/
def numericLiteral : Parser Tree := do
  let place ← start
  match ← token with
  | .number legacy =>
    mistakeIf legacy
    advance
    build place .literal
  | .bigInteger =>
    advance
    build place .literal
  | _ => refuse

/-! ## Modifiers -/

/-- The current token may follow a modifier. -/
def followsModifier : Parser Bool := do
  if ← afterNewline then return false
  match ← token with
  | .word _ | .privateName _ | .string .. | .number _ | .bigInteger => return true
  | .punctuator p =>
    return p == .bracketLeft || p == .braceLeft || p == .star || p == .ellipsis
  | _ => return false

/-- Takes one of the given words if it stands as a modifier: something it can modify follows on the
same line. A `static` that opens an initialization block is none. -/
def modifier (allowed : List String) (stopAtBlock : Bool := false) : Parser (Option String) := do
  match ← word? with
  | none => return none
  | some name =>
    if !allowed.contains name then return none
    if stopAtBlock && name == "static" && (← nextIs .braceLeft) then return none
    attempt do
      advance
      return if ← followsModifier then some name else none

def parameterModifiers : List String := ["public", "protected", "private", "readonly"]

/-- Takes an accessibility or `readonly` modifier that a word or a pattern follows. -/
def parameterModifier : Parser Bool := do
  let following ← next
  let modifies := (← word?).any parameterModifiers.contains && (following.isWord ||
    following.token == .punctuator .braceLeft || following.token == .punctuator .bracketLeft)
  if modifies then
    let _ ← modifier parameterModifiers
  return modifies

/-! ## Expressions in lists -/

/-- An expression in which `in` is an operator. -/
def assignmentWithIn (g : Grammar) : Parser Tree :=
  within (fun c => { c with withoutIn := false }) (g .assignment)

/-- Expressions divided by commas. -/
def expression (g : Grammar) : Parser Tree := do
  let place ← start
  let first ← g .assignment
  if ← isAt .comma then
    let others ← many do
      if ← eat .comma then return some (← g .assignment) else return none
    build place .sequence (first :: others)
  else return first

def expressionWithIn (g : Grammar) : Parser Tree :=
  within (fun c => { c with withoutIn := false }) (expression g)

/-- An argument or an array element, possibly spread. -/
def spreadable (g : Grammar) : Parser Tree := do
  let place ← start
  if ← eat .ellipsis then
    let operand ← assignmentWithIn g
    build place .spread [operand]
  else assignmentWithIn g

/-- The arguments of a call, with their parentheses. -/
def arguments (g : Grammar) : Parser (List Tree) :=
  within (fun c => { c with expectsColon := false }) do
    expect .parenLeft
    commaSeparated .parenRight (spreadable g)

/-- The key of a property: a word, a string, a number or an expression in brackets. -/
def propertyName (g : Grammar) : Parser Tree := do
  let place ← start
  match ← token with
  | .word _ => identifierName
  | .string .. => stringLiteral
  | .number _ | .bigInteger => numericLiteral
  | .punctuator .bracketLeft =>
    advance
    let first ← assignmentWithIn g
    let others ← many do
      if ← eat .comma then
        mistake
        return some (← assignmentWithIn g)
      else return none
    expect .bracketRight
    build place .computedKey (first :: others)
  | _ => refuse

/-- The decorators before a declaration or a member. -/
def decorators (g : Grammar) : Parser (List Tree) :=
  many do
    if ← isAt .at then return some (← g .decorator) else return none

/-! ## Types at the edge of other forms -/

/-- A type of its own, which may be conditional whatever surrounds it. -/
def typeHere (g : Grammar) : Parser Tree :=
  within (fun c => { c with withoutConditionalType := false }) (g .type)

/-- The type after a colon, if there is one. -/
def typing? (g : Grammar) : Parser (List Tree) := do
  if ← eat .colon then return [← typeHere g] else return []

/-- A type argument list may open here. -/
def isAtAngle : Parser Bool := do return (← isAt .less) || (← isAt .shiftLeft)

/-- Takes a `<`; of `<<` it takes the first half. -/
def openAngle : Parser Unit := do
  if ← isAt .shiftLeft then
    let lexeme := (← get).current
    advanceTo (lexeme.here.drop 1) (lexeme.start + 1)
  else expect .less

/-- Type arguments, with their angle brackets. -/
def typeArguments (g : Grammar) : Parser (List Tree) := do
  openAngle
  commaSeparated .greater (typeHere g)

/-- A type parameter; variance and `const` stand only where they are permitted. -/
def typeParameter (g : Grammar) (variance constant : Bool) : Parser Tree := do
  let place ← start
  let modifiers ← many (modifier
    ["public", "private", "protected", "readonly", "abstract", "const", "override", "in", "out"])
  mistakeIf (modifiers.any fun m =>
    !((m == "const" && constant) || ((m == "in" || m == "out") && variance)))
  mistakeIf (modifiers.count "in" > 1 || modifiers.count "out" > 1)
  mistakeIf ((modifiers.dropWhile (· != "out")).contains "in")
  let _ ← identifierName
  let bound ← if ← eatWord "extends" then pure [← typeHere g] else pure []
  let default ← if ← eat .assign then pure [← typeHere g] else pure []
  build place .type (bound ++ default)

/-- Type parameters, with their angle brackets. -/
def typeParameters (g : Grammar) (variance constant : Bool) : Parser (List Tree) := do
  expect .less
  commaSeparated .greater (typeParameter g variance constant)

def typeParameters? (g : Grammar) (variance constant : Bool) : Parser (List Tree) := do
  if ← isAt .less then typeParameters g variance constant else return []

/-- The result type of a function after its mark: a type, or a predicate on a parameter. -/
def resultType (g : Grammar) (mark : Punctuator) : Parser Tree := do
  expect mark
  let place ← start
  let asserts := (← isAtWord "asserts") && ((← next).isName || (← nextIsWord "this")) &&
    !(← next).afterNewline
  if asserts then advance
  let subject := (← isAtName) || (← isAtWord "this")
  let following ← next
  let isPredicate := subject && following.token == .word "is" && !following.afterNewline
  if asserts || isPredicate then
    let _ ← identifierName
    let narrowed ← if isPredicate then do
        advance
        pure [← typeHere g]
      else pure []
    build place .type narrowed
  else typeHere g

end Harvest.TypeScript.Grammar
