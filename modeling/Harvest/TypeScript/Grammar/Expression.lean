import Harvest.TypeScript.Grammar.Arrow
import Harvest.TypeScript.Grammar.Class
import Harvest.TypeScript.Grammar.Literal

/-!
# Expressions

From the primary expressions outwards: accesses and calls, unary and binary operators, conditionals and
assignments.
-/

namespace Harvest.TypeScript.Grammar

open Harvest.TypeScript.Parser

/-! ## Primary expressions -/

/-- A word that stands for itself: `null`, `true` or `false`. -/
def wordLiteral : Parser Tree := do
  let place ← start
  advance
  build place .literal

/-- An arrow function with one bare parameter, from its arrow on. -/
def bareArrow (g : Grammar) (place : Nat) (isAsync : Bool) (parameter : Tree) : Parser Tree := do
  expect .arrow
  arrowFrom g place isAsync [parameter] []

/-- What follows the word `async` when a name comes behind it on the same line. The head of a loop that
waits may hold a variable called `async`, and a type assertion may follow one. -/
def asyncName (g : Grammar) (place : Nat) (async : Tree) : Parser Tree := do
  let around ← context
  if around.inLoopHead && (← isAtWord "of") && !(← nextIs .arrow) then
    mistakeIf !around.loopWaits
    return async
  let parameter ← boundIdentifier
  if parameter.name? == some "as" && !(← isAt .arrow) then
    let typing ← typeHere g
    build place .typed [async, typing]
  else bareArrow g place true parameter

/-- An identifier, or an arrow function whose parameter is one. -/
def identifierOrArrow (g : Grammar) (mayBeArrow : Bool) : Parser Tree := do
  let place ← start
  let name ← identifier
  if !mayBeArrow || (← afterNewline) then return name
  if name.name? == some "async" && (← isAtName) then return ← asyncName g place name
  if ← isAt .arrow then
    mistakeIf (name.name?.any isRestricted)
    return ← bareArrow g place false name
  return name

/-- What starts with the word `async`. -/
def asyncPrimary (g : Grammar) (mayBeArrow : Bool) : Parser Tree := do
  let place ← start
  if ← isAtAsyncFunction then return ← functionFrom g .function false true []
  if mayBeArrow && (← nextIs .less) then
    let generic : Parser (Option Tree) := do
      advance
      genericAsyncArrow g place
    if let some arrow ← attempt generic then return arrow
  if mayBeArrow && (← nextIs .parenLeft) then
    advance
    return ← parenthesisOrArrow g mayBeArrow (some (← spanFrom place))
  identifierOrArrow g mayBeArrow

/-- A private name, which is an expression only before `in`. -/
def privateOperand (name : String) : Parser Tree := do
  let place ← start
  advance
  if !(← isAtWord "in") then refuse
  build place (.privateName name)

/-- A primary expression. -/
def primary (g : Grammar) : Parser Tree := do
  let place ← start
  let mayBeArrow := (← get).arrowStart == some place
  match ← token with
  | .word "this" =>
    advance
    build place .this
  | .word "async" => asyncPrimary g mayBeArrow
  | .word "function" => functionFrom g .function false true []
  | .word "null" | .word "true" | .word "false" => wordLiteral
  | .word "class" => classFrom g place [] false false
  | .word _ => identifierOrArrow g mayBeArrow
  | .number _ | .bigInteger => numericLiteral
  | .string .. => stringLiteral
  | .backtick => templateLiteral g
  | .privateName name => privateOperand name
  | .punctuator .bracketLeft =>
    within (fun c => { c with expectsColon := false }) (arrayLiteral g)
  | .punctuator .braceLeft => objectLiteral g
  | .punctuator .parenLeft => parenthesisOrArrow g mayBeArrow none
  | .punctuator .slash | .punctuator .slashAssign => patternLiteral
  | .punctuator .at =>
    let decorating ← decorators g
    classFrom g place decorating false false
  | _ => refuse

/-! ## Accesses and calls -/

/-- Keywords that an expression may start with. -/
def openingKeywords : List String := [
  "await", "class", "delete", "false", "function", "import", "new", "null", "super", "this", "true",
  "typeof", "void", "yield"]

/-- An expression may start with this token. -/
def startsExpression : Token → Bool
  | .word name =>
    if isReserved name then openingKeywords.contains name else name != "as" && name != "satisfies"
  | .privateName _ | .number _ | .bigInteger | .string .. | .backtick => true
  | .punctuator p => [Punctuator.braceLeft, .parenLeft, .bracketLeft, .plus, .minus, .tilde, .bang,
    .increment, .decrement, .less, .at].contains p
  | _ => false

/-- Tokens behind a closed angle bracket that show that it was a comparison. -/
def comparesAfterAngle (token : Token) : Bool :=
  [Punctuator.parenLeft, .less, .greater, .plus, .minus].any fun p => token == .punctuator p

/-- Type arguments without a call: an expression of its own, unless what follows shows that the
brackets were comparisons. -/
def instantiates : Parser Bool := do
  let here ← token
  if comparesAfterAngle here then return false
  return (← afterNewline) || !startsExpression here

/-- A template behind its tag. -/
def taggedTemplate (g : Grammar) (place : Nat) (tag : Tree) (types : List Tree) : Parser Tree := do
  mistakeIf (isChain tag)
  let parts ← substitutions g true
  build place .tagged (tag :: (parts ++ types))

/-- Type arguments behind an expression, with the call or the template that they belong to. -/
def genericSubscript (g : Grammar) (calls : Bool) (place : Nat) (object : Tree) :
    Parser (Option Tree) := do
  let types ← typeArguments g
  if calls && (← isAt .parenLeft) then
    let args ← arguments g
    return some (.call (← spanFrom place) (isChain object) object args types)
  if (← token) == .backtick then return some (← taggedTemplate g place object types)
  if ← instantiates then return some (← build place .instantiation (object :: types))
  return none

/-- `super` and `import` are no expressions by themselves. -/
def isBareReference (tree : Tree) : Bool :=
  tree.form? == some .superReference || tree.form? == some .importReference

/-- A member access, after its dot or bracket has been read. -/
def memberOf (place : Nat) (object property : Tree) (name : Option String) (optional : Bool) :
    Parser Tree := do
  match object.form? with
  | some .superReference =>
    if optional then refuse
    if name.isNone && property.form? != some .computedKey then refuse
    build place .superMember [object, property]
  | some .importReference => refuse
  | _ => build place (.member name (optional || isChain object)) [object, property]

/-- The next access or call on an expression, if there is one. -/
def subscript (g : Grammar) (calls computed : Bool) (place : Nat) (object : Tree) :
    Parser (Option Tree) := do
  let bare := isBareReference object
  if (← isAt .bang) && !(← afterNewline) then
    if bare then refuse
    advance
    return some (← build place .typed [object])
  if (← isAtAngle) && !bare then
    if let some tree ← attempt (genericSubscript g calls place object) then return some tree
  let optional ← eat .questionDot
  if optional && bare then refuse
  if computed && (← isAt .bracketLeft) then
    let here ← start
    advance
    let key ← expressionWithIn g
    expect .bracketRight
    let property ← build here .computedKey [key]
    return some (← memberOf place object property none optional)
  let types ← if optional && (← isAt .less) then typeArguments g else pure []
  if (calls || optional) && (← isAt .parenLeft) then
    let args ← arguments g
    return some (.call (← spanFrom place) (optional || isChain object) object args types)
  if !types.isEmpty then refuse
  let access ← if optional then pure true else eat .dot
  if access then
    let (property, name) ← memberName
    return some (← memberOf place object property name optional)
  if bare then refuse
  if (← token) == .backtick then return some (← taggedTemplate g place object [])
  return none

/-- All accesses and calls on an expression. -/
def subscripts (g : Grammar) (calls computed : Bool) (place : Nat) (object : Tree) : Parser Tree :=
  extend (subscript g calls computed place) object

/-- An import as an expression: a call, or the description of the module. -/
def importExpression (g : Grammar) (calls : Bool) : Parser Tree := do
  let place ← start
  expectWord "import"
  if ← eat .dot then
    match ← word? with
    | some "meta" =>
      advance
      let described ← build place .metaProperty
      subscripts g calls true place described
    | some "defer" | some "source" =>
      advance
      let reference ← build place .importReference
      subscripts g calls true place reference
    | _ => refuse
  else
    let reference ← build place .importReference
    subscripts g calls true place reference

/-- Type arguments that an argument list follows. -/
def callTypeArguments (g : Grammar) : Parser (Option (List Tree)) := do
  let types ← typeArguments g
  return if ← isAt .parenLeft then some types else none

def callTypeArguments? (g : Grammar) : Parser (List Tree) := do
  if ← isAtAngle then return (← attempt (callTypeArguments g)).getD [] else return []

/-- The function that `new` called, where there is one. -/
def newTarget (g : Grammar) (place : Nat) : Parser Tree := do
  expectWord "target"
  let c ← context
  mistakeIf !(c.hasNewTarget || c.inParameters || c.inField || c.inStaticBlock)
  let target ← build place .metaProperty
  subscripts g false true place target

/-- A construction or an expression without calls. -/
def constructed (g : Grammar) : Parser Tree := do
  let place ← start
  match ← token with
  | .word "new" =>
    advance
    if ← eat .dot then return ← newTarget g place
    let callee ← g .constructed
    if isChain callee then refuse
    let types ← callTypeArguments? g
    if ← isAt .parenLeft then
      let args ← arguments g
      let tree ← build place (.construction true) (callee :: (args ++ types))
      subscripts g false true place tree
    else build place (.construction false) [callee]
  | .word "super" =>
    advance
    let reference ← build place .superReference
    subscripts g false true place reference
  | .word "import" => importExpression g false
  | _ =>
    let tree ← primary g
    if isArrow tree then return tree
    subscripts g false true place tree

/-- An expression that no operator is applied to. -/
def leftHandSide (g : Grammar) : Parser Tree := do
  let place ← start
  match ← token with
  | .word "super" =>
    advance
    let reference ← build place .superReference
    subscripts g true true place reference
  | .word "import" => importExpression g true
  | _ =>
    let callee ← constructed g
    if isArrow callee || callee.form? == some (.construction false) then return callee
    let types ← callTypeArguments? g
    if ← isAt .parenLeft then
      let args ← arguments g
      subscripts g true true place (.call (← spanFrom place) (isChain callee) callee args types)
    else return callee

/-- A decorator: a name with accesses and calls, or an expression in parentheses. -/
def decorator (g : Grammar) : Parser Tree := do
  expect .at
  let place ← start
  if ← eat .parenLeft then
    let inner ← expressionWithIn g
    expect .parenRight
    let tree ← build place .paren [inner]
    subscripts g true false place tree
  else
    let name ← identifier
    subscripts g true false place name

/-! ## Unary operators -/

/-- Words that are unary operators. -/
def unaryWords : List String := ["delete", "void", "typeof"]

/-- An operator that stands before its operand. -/
def isAtUnaryOperator : Parser Bool := do
  match ← token with
  | .word name => return unaryWords.contains name
  | .punctuator p => return [Punctuator.plus, .minus, .tilde, .bang].contains p
  | _ => return false

/-- An increment or a decrement. -/
def isAtUpdate : Parser Bool := do return (← isAt .increment) || (← isAt .decrement)

/-- An expression that waits for its operand. -/
def awaitExpression (g : Grammar) : Parser Tree := do
  let place ← start
  expectWord "await"
  if ← isAt .star then refuse
  let c ← context
  mistakeIf (c.inFunction && !c.inAsync)
  mistakeIf (c.inParameters && !c.inFunction)
  mistakeIf c.inStaticBlock
  let operand ← g .unary
  build place .await [operand]

/-- A type assertion before its operand. -/
def typeAssertion (g : Grammar) : Parser Tree := do
  let place ← start
  expect .less
  if ← eatWord "const" then
    expect .greater
    let operand ← g .unary
    build place .constAssertion [operand]
  else
    let typing ← typeHere g
    expect .greater
    let operand ← g .unary
    build place .typed [operand, typing]

/-- An expression with its unary operators. -/
def unary (g : Grammar) : Parser Tree := do
  let place ← start
  if ← isAt .less then return ← typeAssertion g
  if ← isAtUpdate then
    advance
    let operand ← g .unary
    mistakeIf !(isUpdateTarget operand)
    return ← build place .update [operand]
  if ← isAtUnaryOperator then
    advance
    let operand ← g .unary
    return ← build place .unary [operand]
  if ← isAtWord "await" then return ← awaitExpression g
  let operand ← leftHandSide g
  if isArrow operand || (← afterNewline) || !(← isAtUpdate) then return operand
  mistakeIf !(isUpdateTarget operand)
  advance
  build place .update [operand]

/-! ## Binary operators -/

/-- A binary operator: how tightly it binds, and its length where the tokens do not show it. -/
structure BinaryOperator where
  precedence : Nat
  length : Option Nat := none
  isPower : Bool := false
  /-- One of `&&` and `||`. -/
  isLogical : Bool := false
  isCoalesce : Bool := false

/-- The operator that a `>` starts, unless it is an assignment. -/
def greaterOperator? : List Char → Option BinaryOperator
  | '>' :: '>' :: '>' :: '=' :: _ => none
  | '>' :: '>' :: '>' :: _ => some { precedence := 9, length := some 3 }
  | '>' :: '>' :: '=' :: _ => none
  | '>' :: '>' :: _ => some { precedence := 9, length := some 2 }
  | '>' :: '=' :: _ => some { precedence := 8, length := some 2 }
  | _ => some { precedence := 8, length := some 1 }

/-- The binary operator that a token is. -/
def binaryOperator? (withoutIn : Bool) (lexeme : Lexeme) : Option BinaryOperator :=
  match lexeme.token with
  | .word "in" => if withoutIn then none else some { precedence := 8 }
  | .word "instanceof" => some { precedence := 8 }
  | .punctuator p =>
    match p with
    | .coalesce => some { precedence := 1, isCoalesce := true }
    | .logicalOr => some { precedence := 2, isLogical := true }
    | .logicalAnd => some { precedence := 3, isLogical := true }
    | .or => some { precedence := 4 }
    | .xor => some { precedence := 5 }
    | .and => some { precedence := 6 }
    | .equal | .strictEqual | .notEqual | .strictNotEqual => some { precedence := 7 }
    | .less | .lessEqual => some { precedence := 8 }
    | .greater => greaterOperator? lexeme.here
    | .shiftLeft => some { precedence := 9 }
    | .plus | .minus => some { precedence := 10 }
    | .star | .slash | .percent => some { precedence := 11 }
    | .power => some { precedence := 12, isPower := true }
    | _ => none
  | _ => none

/-- How tightly `as` and `satisfies` bind. -/
def assertionPrecedence : Nat := 7

/-- A type assertion behind its operand. -/
def assertionAfter (g : Grammar) (place : Nat) (operand : Tree) : Parser Tree := do
  let isAs ← isAtWord "as"
  advance
  if isAs && (← isAtWord "const") then
    advance
    build place .constAssertion [operand]
  else
    let typing ← typeHere g
    build place .typed [operand, typing]

/-- The form of a binary expression. -/
def BinaryOperator.form (operator : BinaryOperator) : Form :=
  if operator.isLogical then .logical else .binary

/-- The next operator behind an operand with its right side, if it binds tighter than `above`. -/
def operatorAfter (g : Grammar) (above place : Nat) (left : Tree) : Parser (Option Tree) := do
  let asserts := (← isAtWord "as") || (← isAtWord "satisfies")
  if asserts && assertionPrecedence > above && !(← afterNewline) then
    return some (← assertionAfter g place left)
  let lexeme := (← get).current
  match binaryOperator? (← context).withoutIn lexeme with
  | none => return none
  | some operator =>
    if operator.precedence ≤ above then return none
    match operator.length with
    | none => advance
    | some length => advanceTo (lexeme.here.drop length) (lexeme.start + length)
    if operator.isPower && (left.form? == some .unary || left.form? == some .await) then refuse
    let right ← g (.operators (if operator.isPower then operator.precedence - 1 else operator.precedence))
    mistakeIf (operator.isCoalesce &&
      (left.form? == some .logical || right.form? == some .logical))
    return some (← build place operator.form [left, right])

/-- An expression of operators that bind tighter than `above`. -/
def operators (g : Grammar) (above : Nat) : Parser Tree := do
  let place ← start
  let left ← g .unary
  if isArrow left then return left
  extend (operatorAfter g above place) left

/-! ## Assignments -/

/-- A conditional expression. -/
def conditional (g : Grammar) : Parser Tree := do
  let place ← start
  let condition ← g (.operators 0)
  if isArrow condition || !(← isAt .question) then return condition
  branches g place condition

/-- A yield has an operand, unless something follows that ends it. -/
def yieldExpression (g : Grammar) : Parser Tree := do
  let place ← start
  expectWord "yield"
  let c ← context
  if c.inParameters && !c.inFunction then refuse
  let ends ← isAtSemicolon
  let here ← token
  let isRegex := here == .punctuator .slash || here == .punctuator .slashAssign
  if ends || !(here == .punctuator .star || isRegex || startsExpression here) then
    return ← build place .yield
  let _ ← eat .star
  let operand ← g .assignment
  build place .yield [operand]

/-- Only what may stand left of an assignment can be one. -/
def isOperation (tree : Tree) : Bool :=
  match tree.form? with
  | some .conditional | some .binary | some .logical | some .unary | some .update => true
  | _ => false

/-- An assignment, or an expression that binds tighter. -/
def plainAssignment (g : Grammar) : Parser Tree := do
  if (← context).inGenerator && (← isAtWord "yield") then return ← yieldExpression g
  let place ← start
  let mayStartArrow := (← isAtAnyWord) || (← isAt .parenLeft)
  modify fun s => { s with arrowStart := if mayStartArrow then some place else none }
  let tree ← conditional g
  if isArrow tree || isOperation tree then return tree
  assignmentAfter g place tree

/-- An arrow function with type parameters. -/
def genericArrow (g : Grammar) : Parser (Option Tree) := do
  let place ← start
  let types ← typeParameters g false true
  match ← plainAssignment g with
  | .node .arrow _ parts => return some (← build place .arrow (parts ++ types))
  | _ => return none

/-- An assignment. A `<` before it opens the type parameters of an arrow function, if one can be
read, and a type assertion otherwise. -/
def assignment (g : Grammar) : Parser Tree := do
  if (← isAt .less) && (← next).isWord then
    let generic := within (fun c => { c with expectsColon := false }) (genericArrow g)
    if let some arrow ← attempt generic then return arrow
  plainAssignment g

end Harvest.TypeScript.Grammar
