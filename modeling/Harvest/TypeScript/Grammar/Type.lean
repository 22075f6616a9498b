import Harvest.TypeScript.Grammar.Parameter

/-!
# Types

Types matter to this library only in two ways: they have to be read past, and an expression may stand
inside one, as the computed key of a member or as the default in a pattern.
-/

namespace Harvest.TypeScript.Grammar

open Harvest.TypeScript.Parser

/-! ## Members of object types -/

/-- A member ends with a comma, a semicolon or a line. -/
def memberEnd : Parser Unit := do
  if ← eat .comma then pure () else expectSemicolon

/-- An index signature opens here: a bracket, a name and a colon. -/
def isAtIndexSignature : Parser Bool := do
  if !(← isAt .bracketLeft) then return false
  ahead do
    advance
    if !(← isAtName) then return false
    advance
    isAt .colon

/-- An index signature, if one stands here. -/
def indexSignature? (g : Grammar) : Parser (Option Tree) := do
  if !(← isAtIndexSignature) then return none
  let place ← start
  advance
  let _ ← identifierName
  let key ← typing? g
  expect .bracketRight
  let value ← typing? g
  memberEnd
  return some (← build place .type (key ++ value))

/-- The key of a member of an object type. -/
def typeMemberKey (g : Grammar) : Parser Tree := do
  let place ← start
  match ← token with
  | .punctuator .bracketLeft =>
    advance
    let key ← g .assignment
    expect .bracketRight
    build place .computedKey [key]
  | .privateName name =>
    mistake
    advance
    build place (.privateName name)
  | .string .. => stringLiteral
  | .number _ | .bigInteger => numericLiteral
  | _ => identifierName

/-- Type parameters, parameters and a result type after a colon. -/
def callSignature (g : Grammar) : Parser (List Tree) := do
  let typeParams ← typeParameters? g false true
  expect .parenLeft
  let params ← signatureParameters g
  let result ← if ← isAt .colon then pure [← resultType g .colon] else pure []
  return params ++ result ++ typeParams

/-- A getter or setter of an object type. -/
def accessorSignature (g : Grammar) : Parser (Option Tree) := do
  let place ← start
  let getter ← eatWord "get"
  if !getter then expectWord "set"
  let key ← typeMemberKey g
  expect .parenLeft
  if getter then
    expect .parenRight
    let typing ← typing? g
    memberEnd
    return some (← build place .type (key :: typing))
  else
    let params ← signatureParameters g
    if params.isEmpty then refuse
    memberEnd
    return some (← build place .type (key :: params))

/-- A property or a method of an object type. -/
def propertySignature (g : Grammar) (isReadonly : Bool) : Parser Tree := do
  let place ← start
  let key ← typeMemberKey g
  let _ ← eat .question
  if (← isAt .parenLeft) || (← isAt .less) then
    if isReadonly then refuse
    let signature ← callSignature g
    memberEnd
    build place .type (key :: signature)
  else
    let typing ← typing? g
    memberEnd
    build place .type (key :: typing)

/-- A construct signature opens here. -/
def isAtConstructSignature : Parser Bool := do
  if !(← isAtWord "new") then return false
  return (← nextIs .parenLeft) || (← nextIs .less)

/-- A member of an object type. -/
def typeMember (g : Grammar) : Parser Tree := do
  let place ← start
  if (← isAt .parenLeft) || (← isAt .less) then
    let signature ← callSignature g
    memberEnd
    return ← build place .type signature
  if ← isAtConstructSignature then
    advance
    let signature ← callSignature g
    memberEnd
    return ← build place .type signature
  let isReadonly := (← modifier ["readonly"]).isSome
  if let some signature ← indexSignature? g then return signature
  if !isReadonly then
    if let some accessor ← attempt (accessorSignature g) then return accessor
  propertySignature g isReadonly

/-- The members of an object type, with their braces. -/
def typeMembers (g : Grammar) : Parser (List Tree) := do
  expect .braceLeft
  let members ← many do
    if ← isAt .braceRight then return none
    return some (← typeMember g)
  expect .braceRight
  return members

/-! ## Types in brackets and braces -/

/-- A mapped type opens here. -/
def isAtMappedType : Parser Bool :=
  ahead do
    expect .braceLeft
    if (← eat .plus) || (← eat .minus) then return ← isAtWord "readonly"
    let _ ← eatWord "readonly"
    if !(← eat .bracketLeft) then return false
    if !(← isAtName) then return false
    advance
    isAtWord "in"

/-- A plus or a minus before a word or mark that a mapped type adds or removes. -/
def eatSign : Parser Bool := do
  if ← eat .plus then return true
  eat .minus

/-- A mapped type. -/
def mappedType (g : Grammar) : Parser Tree := do
  let place ← start
  expect .braceLeft
  if ← eatSign then expectWord "readonly" else
    let _ ← eatWord "readonly"
  expect .bracketLeft
  let _ ← identifierName
  expectWord "in"
  let key ← typeHere g
  let renamed ← if ← eatWord "as" then pure [← typeHere g] else pure []
  expect .bracketRight
  if ← eatSign then expect .question else
    let _ ← eat .question
  let value ← typing? g
  expectSemicolon
  expect .braceRight
  build place .type (key :: (renamed ++ value))

/-- The label of a tuple element, with its colon. -/
def tupleLabel : Parser (Option Bool) := do
  let rest ← eat .ellipsis
  let _ ← identifierName
  let _ ← eat .question
  expect .colon
  return some rest

/-- An element of a tuple type: labelled, rest or optional. -/
def tupleElement (g : Grammar) : Parser Tree := do
  let place ← start
  let _ ← attempt tupleLabel
  if ← eat .ellipsis then
    let element ← typeHere g
    build place .restType [element]
  else
    let element ← typeHere g
    if ← eat .question then build place .optionalType [element] else return element

/-- No required element follows an optional one. -/
def tupleInOrder : List Tree → Bool → Bool
  | [], _ => true
  | element :: more, afterOptional =>
    match element.form? with
    | some .restType => tupleInOrder more afterOptional
    | some .optionalType => tupleInOrder more true
    | _ => !afterOptional && tupleInOrder more afterOptional

def tupleType (g : Grammar) : Parser Tree := do
  let place ← start
  expect .bracketLeft
  let elements ← commaSeparated .bracketRight (tupleElement g)
  if !tupleInOrder elements false then refuse
  build place .tupleType elements

/-- A template literal type. -/
def templateType (g : Grammar) : Parser Tree := do
  let place ← start
  let types ← many do
    let lexeme := (← get).current
    let opens := lexeme.token == .backtick || lexeme.token == .punctuator .braceRight
    if !opens then refuse
    match templateChunk lexeme.rest 0 lexeme.stop true with
    | none => refuse
    | some chunk =>
      if !chunk.wellFormed then refuse
      advanceTo chunk.rest chunk.pos
      if chunk.closed then return none
      return some (← typeHere g)
  build place .type types

/-! ## References and queries -/

/-- A dotted name. -/
def entityName : Parser Unit := do
  let _ ← identifierName
  let _ ← many do
    if ← eat .dot then
      let _ ← identifierName
      return some ()
    else return none

/-- Type arguments on the same line, if there are any. -/
def typeArgumentsHere? (g : Grammar) : Parser (List Tree) := do
  if (← isAtAngle) && !(← afterNewline) then typeArguments g else return []

/-- A reference to a type by its name. -/
def typeReference (g : Grammar) : Parser Tree := do
  let place ← start
  entityName
  let types ← typeArgumentsHere? g
  build place .type types

/-- The type of an imported module: `import('path').Name`. -/
def importType (g : Grammar) : Parser Tree := do
  let place ← start
  expectWord "import"
  expect .parenLeft
  if ← isAtString then
    let _ ← stringLiteral
  else
    mistake
    advance
  let attributes ← if ← eat .comma then do
      if ← isAt .parenRight then pure [] else
        let options ← g .assignment
        let _ ← eat .comma
        pure [options]
    else pure []
  expect .parenRight
  if ← eat .dot then entityName
  let types ← typeArgumentsHere? g
  build place .type (attributes ++ types)

/-- The type of a value: `typeof name`. -/
def typeQuery (g : Grammar) : Parser Tree := do
  let place ← start
  expectWord "typeof"
  if ← isAtWord "import" then importType g else
    entityName
    let types ← typeArgumentsHere? g
    build place .type types

/-! ## Functions -/

/-- Skips a bracketed group of tokens, from its opening one on. -/
def skipGroup : Nat → Nat → Parser Unit
  | 0, _ => refuse
  | bound + 1, depth => do
    match ← token with
    | .endOfFile | .invalid => refuse
    | .punctuator p =>
      advance
      let opening := p == .braceLeft || p == .bracketLeft || p == .parenLeft
      let closing := p == .braceRight || p == .bracketRight || p == .parenRight
      let depth := if opening then depth + 1 else if closing then depth - 1 else depth
      if depth == 0 then pure () else skipGroup bound depth
    | _ =>
      advance
      skipGroup bound depth

/-- Skips what a parameter starts with: a modifier and a name or a pattern. -/
def skipParameterStart : Parser Bool := do
  let _ ← parameterModifier
  if ← isAtAnyWord then
    if (← isAtName) || (← isAtWord "this") then
      advance
      return true
    return false
  if (← isAt .braceLeft) || (← isAt .bracketLeft) then
    skipGroup ((← get).size + 2) 0
    return true
  return false

/-- A function type opens here, and not a type in parentheses. -/
def isAtFunctionType : Parser Bool := do
  if ← isAt .less then return true
  if !(← isAt .parenLeft) then return false
  ahead do
    advance
    if (← isAt .parenRight) || (← isAt .ellipsis) then return true
    if ← skipParameterStart then
      if (← isAt .colon) || (← isAt .comma) || (← isAt .question) || (← isAt .assign) then return true
      if ← eat .parenRight then return ← isAt .arrow
    return false

/-- A function type, after any `new`. -/
def functionType (g : Grammar) : Parser Tree := do
  let place ← start
  let typeParams ← typeParameters? g false true
  expect .parenLeft
  let params ← signatureParameters g
  let result ← resultType g .arrow
  build place .type (params ++ result :: typeParams)

/-! ## Operators on types -/

/-- Words that name a type although they are keywords. -/
def typeKeywords : List String := ["void", "null", "yield", "await", "break"]

/-- Words that are types of their own, unless a dot follows. They take no type arguments. -/
def keywordTypes : List String := [
  "any", "bigint", "boolean", "never", "null", "number", "object", "string", "symbol", "undefined",
  "unknown", "void"]

/-- A type that no operator is applied to. -/
def primaryType (g : Grammar) : Parser Tree := do
  let place ← start
  match ← token with
  | .string .. => stringLiteral
  | .number _ | .bigInteger => numericLiteral
  | .backtick => templateType g
  | .punctuator .minus =>
    advance
    numericLiteral
  | .punctuator .braceLeft =>
    if ← isAtMappedType then mappedType g else
      let members ← typeMembers g
      build place .type members
  | .punctuator .bracketLeft => tupleType g
  | .punctuator .parenLeft =>
    advance
    let inner ← typeHere g
    expect .parenRight
    build place .type [inner]
  | .word "import" => importType g
  | .word "typeof" => typeQuery g
  | .word "true" | .word "false" =>
    advance
    build place .type
  | .word "this" =>
    advance
    if (← isAtWord "is") && !(← afterNewline) then
      advance
      let narrowed ← g .type
      build place .type [narrowed]
    else build place .type
  | .word "asserts" =>
    if ← nextIsWord "this" then
      advance
      advance
      let narrowed ← if ← eatWord "is" then pure [← g .type] else pure []
      build place .type narrowed
    else typeReference g
  | .word name =>
    if keywords.contains name && !typeKeywords.contains name then refuse
    if keywordTypes.contains name && !(← nextIs .dot) then
      advance
      build place .type
    else typeReference g
  | _ => refuse

/-- A type with its array and index brackets. -/
def postfixType (g : Grammar) : Parser Tree := do
  let place ← start
  let element ← primaryType g
  extend (fun type => do
    if ← afterNewline then return none
    if !(← eat .bracketLeft) then return none
    if ← eat .bracketRight then return some (← build place .arrayType [type])
    let index ← typeHere g
    expect .bracketRight
    return some (← build place .type [type, index])) element

/-- The bound of an inferred type, unless it belongs to a conditional type. -/
def inferredBound (g : Grammar) : Parser (Option Tree) := do
  expectWord "extends"
  let bound ← within (fun c => { c with withoutConditionalType := true }) (g .plainType)
  if (← context).withoutConditionalType || !(← isAt .question) then return some bound
  return none

/-- A type with operators before it: `keyof`, `unique`, `readonly` and `infer`. -/
def typeOperator (g : Grammar) : Parser Tree := do
  let place ← start
  match ← token with
  | .word "keyof" | .word "unique" =>
    advance
    let operand ← g .typeOperator
    build place .type [operand]
  | .word "readonly" =>
    advance
    let operand ← g .typeOperator
    mistakeIf !(operand.form? == some .arrayType || operand.form? == some .tupleType)
    build place .type [operand]
  | .word "infer" =>
    advance
    let _ ← identifierName
    let bound ← attempt (inferredBound g)
    build place .type bound.toList
  | _ => postfixType g

/-- Types joined by an operator, which may also stand before the first. -/
def joinedTypes (operator : Punctuator) (operand : Parser Tree) : Parser Tree := do
  let place ← start
  let _ ← eat operator
  let first ← operand
  if ← isAt operator then
    let others ← many do
      if ← eat operator then return some (← operand) else return none
    build place .type (first :: others)
  else return first

/-- A type that is not conditional. -/
def plainType (g : Grammar) : Parser Tree := do
  if ← isAtFunctionType then return ← functionType g
  if (← isAtWord "abstract") && (← nextIsWord "new") then
    advance
    advance
    return ← functionType g
  if ← eatWord "new" then return ← functionType g
  joinedTypes .or (joinedTypes .and (g .typeOperator))

/-- A type. -/
def type (g : Grammar) : Parser Tree := do
  let place ← start
  let checked ← plainType g
  if (← context).withoutConditionalType || (← afterNewline) then return checked
  if !(← eatWord "extends") then return checked
  let bound ← within (fun c => { c with withoutConditionalType := true }) (plainType g)
  expect .question
  let holds ← typeHere g
  expect .colon
  let fails ← typeHere g
  build place .type [checked, bound, holds, fails]

end Harvest.TypeScript.Grammar
