import Harvest.TypeScript.Grammar.Expression

/-!
# Statements and declarations
-/

namespace Harvest.TypeScript.Grammar

open Harvest.TypeScript.Parser

/-- An expression in parentheses. -/
def parenthesizedTest (g : Grammar) : Parser Tree := do
  expect .parenLeft
  let test ← expressionWithIn g
  expect .parenRight
  return test

/-- A statement that is one expression may leave its semicolon out before anything. -/
def importStatement (g : Grammar) : Parser Tree := do
  let place ← start
  let tree ← expression g
  let _ ← eatSemicolon
  build place .expressionStatement [tree]

/-! ## Variables -/

/-- A declared variable. -/
structure Declarator where
  tree : Tree
  hasValue : Bool
  isAnnotated : Bool

/-- A loop over the members of something is divided by `of` or `in`. -/
def isAtLoopDivider : Parser Bool := do return (← isAtWord "of") || (← isAtWord "in")

/-- One variable with its type and value. Constants and patterns need a value unless they are ambient
or run through a loop. -/
def declarator (g : Grammar) (isConstant inHead : Bool) : Parser Declarator := do
  let place ← start
  if ← isAtWord "let" then mistake
  let pattern ← g .binding
  if pattern.name?.isSome then
    let _ ← eat .bang
  let typing ← typing? g
  let pattern ← annotate pattern typing
  let isAnnotated := !typing.isEmpty
  if inHead && (← isAtLoopDivider) then
    return ⟨← build place .declarator [pattern], false, isAnnotated⟩
  if ← eat .assign then
    let value ← withoutStrayDefaults (← g .assignment)
    return ⟨← build place .declarator [pattern, value], true, isAnnotated⟩
  if !(← context).ambient then
    if isConstant then mistake else
      if pattern.name?.isNone then refuse
  return ⟨← build place .declarator [pattern], false, isAnnotated⟩

/-- Variables divided by commas; a comma must not end them. -/
def declarators (g : Grammar) (isConstant inHead : Bool) : Parser (List Declarator) := do
  let first ← declarator g isConstant inHead
  let others ← many do
    if ← eat .comma then
      mistakeIf ((← isAt .semicolon) || (← isAtEnd))
      return some (← declarator g isConstant inHead)
    else return none
  return first :: others

/-- A `let` that declares: a name or a pattern follows it. -/
def isAtLetDeclaration : Parser Bool := do
  if !(← isAtWord "let") then return false
  return (← next).isWord || (← nextIs .braceLeft) || (← nextIs .bracketLeft)

/-- A declaration of variables opens here. -/
def isAtVariables : Parser Bool := do
  if (← isAtWord "var") || (← isAtWord "const") then return true
  isAtLetDeclaration

/-- A declaration of variables. -/
def variableStatement (g : Grammar) : Parser Tree := do
  let place ← start
  let isConstant ← isAtWord "const"
  advance
  let declared ← within (fun c => { c with withoutIn := false }) (declarators g isConstant false)
  mistakeIf !(← eatSemicolon)
  build place .statement (declared.map (·.tree))

/-- A resource is declared here: its name follows on the same line. -/
def isAtUsing : Parser Bool := do
  if !(← isAtWord "using") then return false
  let following ← next
  return following.isName && !following.afterNewline

/-- A declaration of resources, which are identifiers with values. -/
def usingStatement (g : Grammar) : Parser Tree := do
  let place ← start
  let _ ← eatWord "await"
  expectWord "using"
  let declared ← within (fun c => { c with withoutIn := false }) (declarators g false false)
  mistakeIf (declared.any fun d => !d.hasValue || (d.tree.parts.head?.bind Tree.name?).isNone)
  expectSemicolon
  build place .statement (declared.map (·.tree))

/-- A resource that waits at its end is declared here. -/
def isAtAwaitUsing : Parser Bool := do
  if !(← isAtWord "await") then return false
  let following ← next
  if following.token != .word "using" || following.afterNewline then return false
  ahead do
    advance
    isAtUsing

/-! ## Loops -/

/-- The context of the body of a loop. -/
def enterLoop (c : Context) : Context := { c with breakable := true, continuable := true }

def loopBody (g : Grammar) : Parser Tree := within enterLoop (g (.statement false))

/-- A loop that tests at its end. -/
def doStatement (g : Grammar) : Parser Tree := do
  let place ← start
  expectWord "do"
  let body ← loopBody g
  expectWord "while"
  let test ← parenthesizedTest g
  let _ ← eatSemicolon
  build place .statement [test, body]

def whileStatement (g : Grammar) : Parser Tree := do
  let place ← start
  expectWord "while"
  let test ← parenthesizedTest g
  let body ← loopBody g
  build place .statement [test, body]

/-- The head of a loop: its parts, and whether it runs over the values of something. -/
structure LoopHead where
  parts : List Tree
  isOf : Bool

/-- The rest of a head that counts: a test and an update. -/
def countingHead (g : Grammar) (init : List Tree) : Parser LoopHead := do
  let test ← if ← isAt .semicolon then pure [] else pure [← expressionWithIn g]
  expect .semicolon
  let update ← if ← isAt .parenRight then pure [] else pure [← expressionWithIn g]
  return ⟨init ++ test ++ update, false⟩

/-- The rest of a head that runs over something. -/
def memberHead (g : Grammar) (target : List Tree) : Parser LoopHead := do
  if ← eatWord "of" then
    let values ← assignmentWithIn g
    return ⟨target ++ [values], true⟩
  expectWord "in"
  let object ← expressionWithIn g
  return ⟨target ++ [object], false⟩

/-- A head that declares its variables. A head that runs over something has one, without a value and
without a type. -/
def declaringHead (g : Grammar) : Parser LoopHead := do
  let isConstant ← isAtWord "const"
  let isVar ← isAtWord "var"
  advance
  let declared ← within (fun c => { c with withoutIn := isVar }) (declarators g isConstant true)
  let trees := declared.map (·.tree)
  if ← isAtLoopDivider then
    mistakeIf (declared.length != 1 || declared.any fun d => d.hasValue || d.isAnnotated)
    return ← memberHead g trees
  expect .semicolon
  countingHead g trees

/-- The expression just read was the word of a resource declaration: its name and a divider follow. -/
def isAtLoopResource (init : Tree) : Parser Bool := do
  let isUsing := init.name? == some "using" ||
    (init.form? == some .await && (init.parts.head?.bind Tree.name?) == some "using")
  if !isUsing || (← isAtWord "of") || !(← isAtName) then return false
  return (← nextIsWord "of") || (← nextIsWord "in")

/-- A head that starts with an expression. -/
def expressionHead (g : Grammar) : Parser LoopHead := do
  let init ← within (fun c => { c with withoutIn := true }) (expression g)
  if ← isAtLoopResource init then
    let name ← boundIdentifier
    mistakeIf (← isAtWord "in")
    return ← memberHead g [name]
  if ← isAtLoopDivider then
    mistakeIf !(isAssignable init)
    let isPatternForm := match init.form? with
      | some (.array _) | some (.object _) => true
      | _ => false
    mistakeIf (isPatternForm && (← isAtWord "in"))
    return ← memberHead g [init]
  expect .semicolon
  let init ← withoutStrayDefaults init
  countingHead g [init]

def loopHead (g : Grammar) : Parser LoopHead := do
  if ← isAtVariables then return ← declaringHead g
  if ← eat .semicolon then return ← countingHead g []
  expressionHead g

/-- A loop with a head. Only a loop over values may wait for them. -/
def forStatement (g : Grammar) : Parser Tree := do
  let place ← start
  expectWord "for"
  let waits ← eatWord "await"
  expect .parenLeft
  let head ← within (fun c => { c with inLoopHead := true, loopWaits := waits }) (loopHead g)
  expect .parenRight
  let body ← loopBody g
  if waits && !head.isOf then refuse
  build place .statement (head.parts ++ [body])

/-! ## Jumps -/

/-- A jump out of a loop or on to its next turn. Its label must be one of those around it. -/
def jumpStatement : Parser Tree := do
  let place ← start
  let breaks ← isAtWord "break"
  advance
  let label ← if ← eatSemicolon then pure none else do
    let label ← identifier
    expectSemicolon
    pure (label.name?)
  let c ← context
  mistakeIf !(if breaks then c.breakable else c.continuable)
  mistakeIf (label.any fun name => !c.labels.contains name)
  build place .statement

def returnStatement (g : Grammar) : Parser Tree := do
  let place ← start
  expectWord "return"
  let value ← if ← isAtSemicolon then pure [] else pure [← expressionWithIn g]
  expectSemicolon
  mistakeIf !(← context).inFunction
  build place .statement value

def throwStatement (g : Grammar) : Parser Tree := do
  let place ← start
  expectWord "throw"
  if ← afterNewline then refuse
  let value ← expressionWithIn g
  expectSemicolon
  build place .statement [value]

/-! ## Branches -/

def ifStatement (g : Grammar) : Parser Tree := do
  let place ← start
  expectWord "if"
  let test ← parenthesizedTest g
  let first ← g (.statement false)
  let second ← if ← eatWord "else" then pure [← g (.statement false)] else pure []
  build place .statement (test :: first :: second)

/-- One case of a switch: whether it is the default, and its parts. -/
def switchCase (g : Grammar) : Parser (Bool × List Tree) := do
  let isDefault ← eatWord "default"
  let test ← if isDefault then pure [] else do
    expectWord "case"
    pure [← expressionWithIn g]
  expect .colon
  let body ← many do
    if (← isAtWord "case") || (← isAtWord "default") || (← isAt .braceRight) then return none
    return some (← g (.statement true))
  return (isDefault, test ++ body)

/-- A switch has at most one default. -/
def switchStatement (g : Grammar) : Parser Tree := do
  let place ← start
  expectWord "switch"
  let subject ← parenthesizedTest g
  expect .braceLeft
  let cases ← within (fun c => { c with breakable := true }) do
    many do
      if ← isAt .braceRight then return none
      return some (← switchCase g)
  expect .braceRight
  if (cases.filter Prod.fst).length > 1 then refuse
  build place .statement (subject :: cases.flatMap Prod.snd)

/-- The parameter of a catch clause, if it has one. -/
def catchParameter (g : Grammar) : Parser (List Tree) := do
  if !(← eat .parenLeft) then return []
  let pattern ← g .binding
  let typing ← typing? g
  expect .parenRight
  return pattern :: typing

def tryStatement (g : Grammar) : Parser Tree := do
  let place ← start
  expectWord "try"
  let body ← block g
  let handler ← if ← eatWord "catch" then do
      let parameter ← catchParameter g
      pure (parameter ++ [← block g])
    else pure []
  let finalizer ← if ← eatWord "finally" then pure [← block g] else pure []
  mistakeIf (handler.isEmpty && finalizer.isEmpty)
  build place .statement (body :: (handler ++ finalizer))

/-! ## Declarations of types -/

/-- A name that is not the name of a builtin type. -/
def declaredTypeName : Parser Unit := do
  let name ← identifierName
  mistakeIf (name.name?.any builtinTypes.contains)

/-- An interface after its word. -/
def interfaceFrom (g : Grammar) (place : Nat) : Parser Tree := do
  declaredTypeName
  let typeParams ← typeParameters? g true false
  let bases ← if ← eatWord "extends" then heritage g else pure []
  let members ← typeMembers g
  build place .statement (typeParams ++ bases ++ members)

/-- The name of a type after its word. -/
def typeAliasFrom (g : Grammar) (place : Nat) : Parser Tree := do
  let _ ← identifierName
  let typeParams ← typeParameters? g true false
  expect .assign
  let definition ← typeHere g
  expectSemicolon
  build place .statement (typeParams ++ [definition])

/-- A member of an enumeration: a name or a string, possibly with a value. -/
def enumMember (g : Grammar) : Parser Tree := do
  let place ← start
  match ← token with
  | .string .. =>
    let _ ← stringLiteral
  | .number _ =>
    mistake
    advance
  | .punctuator .bracketLeft =>
    mistake
    advance
    let _ ← expression g
    expect .bracketRight
  | _ =>
    let _ ← identifierName
  let value ← if ← eat .assign then pure [← g .assignment] else pure []
  build place .property value

/-- An enumeration after its word. -/
def enumFrom (g : Grammar) (place : Nat) : Parser Tree := do
  let _ ← identifierName
  expect .braceLeft
  let members ← commaSeparated .braceRight (enumMember g)
  build place .statement members

/-! ## Namespaces -/

/-- The items of a namespace, with their braces. -/
def namespaceItems (g : Grammar) : Parser (List Tree) := do
  expect .braceLeft
  let items ← many do
    if ← isAt .braceRight then return none
    return some (← g .moduleItem)
  expect .braceRight
  return items

/-- A namespace after its word: a dotted name and items. -/
def namespaceFrom (g : Grammar) (place : Nat) : Parser Tree := do
  entityName
  let items ← namespaceItems g
  build place .statement items

/-- A module that is declared by its path, or the global scope. It may have no items. -/
def ambientModule (g : Grammar) (place : Nat) : Parser Tree := do
  if !(← eatWord "global") then
    let _ ← stringLiteral
  let items ← if ← isAt .braceLeft then namespaceItems g else do
    expectSemicolon
    pure []
  build place .statement items

/-! ## Declarations that words introduce -/

/-- The declaration that a word introduces. When the word is still to be taken (`pending`), nothing
else can follow it; otherwise the word may as well be an expression. -/
def introducedDeclaration (g : Grammar) (place : Nat) (word : String) (pending : Bool)
    (decorating : List Tree) : Parser (Option Tree) := do
  let sameLine := !(← afterNewline)
  let take : Parser Unit := if pending then advance else pure ()
  match word with
  | "abstract" =>
    if pending || ((← isAtWord "class") && sameLine) then
      take
      return some (← classFrom g place decorating true true)
    return none
  | "enum" =>
    if pending || (← isAtName) then
      take
      return some (← enumFrom g place)
    return none
  | "interface" =>
    if pending || (← isAtName) then
      take
      return some (← interfaceFrom g place)
    return none
  | "module" =>
    if !sameLine then return none
    take
    if ← isAtString then return some (← ambientModule g place)
    if pending || (← isAtName) then return some (← namespaceFrom g place)
    return none
  | "namespace" =>
    if pending || (← isAtName) then
      take
      return some (← namespaceFrom g place)
    return none
  | "type" =>
    if pending || (sameLine && (← isAtName)) then
      take
      return some (← typeAliasFrom g place)
    return none
  | _ => return none

/-- A constant enumeration opens here. -/
def isAtConstEnum : Parser Bool := do return (← isAtWord "const") && (← nextIsWord "enum")

def constEnum (g : Grammar) : Parser Tree := do
  let place ← start
  advance
  advance
  enumFrom g place

/-- What follows `declare`, if it is a declaration. -/
def declaredAfter (g : Grammar) (place : Nat) (decorating : List Tree) : Parser (Option Tree) := do
  let c ← context
  mistakeIf (c.ambient && !c.declarationFile)
  within (fun c => { c with ambient := true }) do
    if ← isAtWord "function" then
      return some (← functionFrom g .function true false decorating)
    if ← isAtWord "class" then return some (← classFrom g place decorating true false)
    if ← isAtConstEnum then return some (← constEnum g)
    if (← isAtWord "const") || (← isAtWord "var") || (← isAtWord "let") then
      return some (← variableStatement g)
    if ← isAtWord "global" then return some (← ambientModule g place)
    match ← word? with
    | some word => introducedDeclaration g place word true decorating
    | none => return none

/-- What an identifier that stands as a statement introduces. -/
def declarationAfterWord (g : Grammar) (place : Nat) (word : String) (decorating : List Tree) :
    Parser (Option Tree) := do
  match word with
  | "declare" => declaredAfter g place decorating
  | "global" =>
    if !(← isAt .braceLeft) then return none
    let items ← namespaceItems g
    return some (← build place .statement items)
  | _ => introducedDeclaration g place word false decorating

/-! ## Statements -/

/-- A statement behind its label and colon. No statement around it has the same label, and functions
have none. -/
def labelledStatement (g : Grammar) (place : Nat) (label : String) : Parser Tree := do
  mistakeIf ((← context).labels.contains label)
  mistakeIf (← isAtWord "function")
  let enter (c : Context) : Context := { c with breakable := true, labels := label :: c.labels }
  let body ← within enter (g (.statement false))
  build place .statement [body]

/-- A statement that starts like an expression: a label, a declaration that a word introduces, or an
expression. -/
def expressionStatement (g : Grammar) (decorating : List Tree) : Parser Tree := do
  let place ← start
  let tree ← expressionWithIn g
  match tree.name? with
  | some name =>
    if ← eat .colon then return ← labelledStatement g place name
    if let some declaration ← declarationAfterWord g place name decorating then return declaration
  | none => mistakeIf (strayDefault tree)
  expectSemicolon
  build place .expressionStatement [tree]

/-- A word that introduces a declaration when its name follows on the same line. -/
def isAtTypeWord (word : String) : Parser Bool := do
  if !(← isAtWord word) then return false
  nextIsWordHere

/-- A statement after its decorators. -/
def statementAfter (g : Grammar) (declarations : Bool) (decorating : List Tree) : Parser Tree := do
  let place ← start
  if ← isAtConstEnum then return ← constEnum g
  match ← token with
  | .word "break" | .word "continue" => jumpStatement
  | .word "debugger" =>
    advance
    expectSemicolon
    build place .statement
  | .word "do" => doStatement g
  | .word "for" => forStatement g
  | .word "function" =>
    mistakeIf !declarations
    functionFrom g .function true false decorating
  | .word "class" =>
    mistakeIf !declarations
    classFrom g place decorating true false
  | .word "if" => ifStatement g
  | .word "return" => returnStatement g
  | .word "switch" => switchStatement g
  | .word "throw" => throwStatement g
  | .word "try" => tryStatement g
  | .word "while" => whileStatement g
  | .word "var" => variableStatement g
  | .punctuator .braceLeft => block g
  | .punctuator .semicolon =>
    advance
    build place .statement
  | _ =>
    if declarations && ((← isAtWord "const") || (← isAtLetDeclaration)) then
      return ← variableStatement g
    if declarations && ((← isAtUsing) || (← isAtAwaitUsing)) then return ← usingStatement g
    if ← isAtTypeWord "interface" then
      advance
      return ← interfaceFrom g place
    if ← isAtTypeWord "type" then
      advance
      return ← typeAliasFrom g place
    if ← isAtTypeWord "enum" then
      advance
      return ← enumFrom g place
    if ← isAtAsyncFunction then return ← functionFrom g .function true false decorating
    expressionStatement g decorating

/-- An import stands here as an expression. -/
def isAtImportExpression : Parser Bool := do
  if !(← isAtWord "import") then return false
  return (← nextIs .parenLeft) || (← nextIs .dot)

/-- A statement. -/
def statement (g : Grammar) (declarations : Bool) : Parser Tree := do
  let decorating ← decorators g
  if ← isAtImportExpression then return ← importStatement g
  if (← isAtWord "import") || (← isAtWord "export") then refuse
  statementAfter g declarations decorating

end Harvest.TypeScript.Grammar
