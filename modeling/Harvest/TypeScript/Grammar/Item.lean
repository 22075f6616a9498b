import Harvest.TypeScript.Grammar.Statement

/-!
# Imports, exports and the items of a module
-/

namespace Harvest.TypeScript.Grammar

open Harvest.TypeScript.Parser

/-! ## Clauses -/

/-- Attributes of an import or export. -/
def attributes (g : Grammar) : Parser (List Tree) := do
  if !(← afterNewline) && ((← isAtWord "with") || (← isAtWord "assert")) then
    advance
    return [← objectLiteral g]
  return []

/-- The path of a module as a string literal. -/
def modulePath : Parser StringValue := do
  let path ← stringLiteral
  match path.form? with
  | some (.string value) => return value
  | _ => refuse

/-- The clause that names the module, to the end of the statement. -/
def fromClause (g : Grammar) : Parser (StringValue × List Tree) := do
  expectWord "from"
  let path ← modulePath
  let attrs ← attributes g
  expectSemicolon
  return (path, attrs)

/-- A name in a list of imports or exports: any word or a string. -/
inductive SpecifierName where
  | word (name : String)
  | string (value : StringValue)

def SpecifierName.text : SpecifierName → String
  | .word name => name
  | .string value => value.toText

def specifierName : Parser SpecifierName := do
  if ← isAtString then return .string (← modulePath)
  match (← identifierName).name? with
  | some name => return .word name
  | none => refuse

/-- The name that a binding gives. -/
def boundName : Parser String := do
  match (← boundIdentifier).name? with
  | some name => return name
  | none => refuse

/-- An entry of a list: the name outside, the name inside if another is given, and whether it is
marked as a type. -/
structure Specifier where
  name : SpecifierName
  outerName : Option SpecifierName
  isType : Bool

/-- An entry of a list, where `type` is a mark or a name according to what follows it:
`type`, `type a`, `type as`, `type as a`, `type as as` and `type as as a`. -/
def specifier (outerName : Parser SpecifierName) : Parser Specifier := do
  let name ← specifierName
  let isTypeWord := match name with
    | .word "type" => true
    | _ => false
  if isTypeWord && (← isAtAnyWord) then
    let second ← identifierName
    if second.name? != some "as" then
      let marked := SpecifierName.word (second.name?.getD "")
      let outer ← if ← eatWord "as" then pure (some (← outerName)) else pure none
      return ⟨marked, outer, true⟩
    if !(← isAtAnyWord) then return ⟨.word "as", none, true⟩
    let third ← outerName
    match third with
    | .word "as" =>
      if ← isAtAnyWord then return ⟨.word "as", some (← outerName), true⟩
      return ⟨name, some third, false⟩
    | _ => return ⟨name, some third, false⟩
  let outer ← if ← eatWord "as" then pure (some (← outerName)) else pure none
  return ⟨name, outer, false⟩

/-- The entries of a list, with its braces. -/
def specifiers (outerName : Parser SpecifierName) : Parser (List Specifier) := do
  expect .braceLeft
  let entries ← many do
    if ← isAt .braceRight then return none
    let entry ← specifier outerName
    if !(← isAt .braceRight) then expect .comma
    return some entry
  expect .braceRight
  return entries

/-! ## Imports -/

/-- The name that an entry of an import binds. A reserved word or a string needs another name. -/
def Specifier.localName : Specifier → Option String
  | ⟨_, some outer, _⟩ => some outer.text
  | ⟨.word name, none, _⟩ => if isReserved name then none else some name
  | ⟨.string _, none, _⟩ => none

/-- The names that a list of imports binds. -/
def namedImports (isTypeImport : Bool) : Parser (List (String × String)) := do
  let entries ← specifiers (.word <$> boundName)
  mistakeIf (isTypeImport && entries.any (·.isType))
  entries.mapM fun entry => do
    match entry.localName with
    | some name => return (name, entry.name.text)
    | none => refuse

/-- What another module is called inside of this one: `require('path')` or a dotted name. -/
def importEquals (place : Nat) : Parser Tree := do
  expect .assign
  if (← isAtWord "require") && (← nextIs .parenLeft) then
    advance
    advance
    let _ ← modulePath
    expect .parenRight
  else entityName
  expectSemicolon
  build place .statement

/-- The bindings of an import, provided its path is a proper text. -/
def importBindings (path : StringValue) (names : List (String × String)) : List ImportBinding :=
  match path.toText? with
  | none => []
  | some text => names.map fun (localName, importedName) => ⟨localName, importedName, text⟩

/-- How the head of an import goes on. -/
inductive ImportHead where
  /-- A list or a star may follow. -/
  | bindings (isType : Bool)
  /-- A list may not follow. -/
  | star
  /-- Neither may follow. -/
  | source
  /-- The import names another module. -/
  | equals

/-- The first word of an import: a default binding, or a mark. -/
def importHead : Parser ImportHead := do
  if !(← isAtName) then return .bindings false
  let first ← boundName
  if first == "type" && ((← isAt .star) || (← isAt .braceLeft)) then return .bindings true
  let marked ← if first == "type" && (← isAtName) then do
      if !(← isAtWord "from") || (← nextIsWord "from") || (← nextIs .assign) then
        let _ ← boundName
        pure true
      else pure false
    else pure false
  if ← isAt .assign then return .equals
  if !marked && first == "defer" && (← isAt .star) then return .star
  let isSource := !marked && first == "source" && (← isAtName) &&
    (!(← isAtWord "from") || (← nextIsWord "from"))
  if isSource then
    let _ ← boundName
  if !(← isAtWord "from") then expect .comma
  return if isSource then .source else .bindings marked

/-- The names that follow the head of an import. -/
def importedNames : ImportHead → Parser (List (String × String))
  | .source | .equals => return []
  | .star => starImport
  | .bindings isType => do
    if ← isAt .braceLeft then namedImports isType
    else starImport
where
  starImport : Parser (List (String × String)) := do
    if ← eat .star then
      expectWord "as"
      let _ ← boundName
    return []

/-- An import declaration. -/
def importDeclaration (g : Grammar) : Parser Tree := do
  let place ← start
  expectWord "import"
  if ← isAtString then
    let _ ← modulePath
    let attrs ← attributes g
    expectSemicolon
    return ← build place (.importDeclaration []) attrs
  match ← importHead with
  | .equals => importEquals place
  | head =>
    let names ← importedNames head
    let (path, attrs) ← fromClause g
    build place (.importDeclaration (importBindings path names)) attrs

/-! ## Exports -/

/-- Without the clause that names a module, an exported name is one of this module. -/
def isExportable : SpecifierName → Bool
  | .word name => !(keywords.contains name || name == "enum")
  | .string _ => false

/-- A list of exported names, with the clause that names a module if there is one. -/
def exportList (g : Grammar) (place : Nat) (isType : Bool) : Parser Tree := do
  let entries ← specifiers specifierName
  mistakeIf (isType && entries.any (·.isType))
  if ← isAtWord "from" then
    let (_, attrs) ← fromClause g
    build place .statement attrs
  else
    mistakeIf !(entries.all fun entry => isExportable entry.name)
    let _ ← eatSemicolon
    build place .statement

/-- Everything of another module, possibly under one name. -/
def exportAll (g : Grammar) (place : Nat) : Parser Tree := do
  expect .star
  if ← eatWord "as" then
    let _ ← specifierName
  let (_, attrs) ← fromClause g
  build place .statement attrs

/-- Decorators stand before or behind the word `export`, not on both sides. -/
def innerDecorators (g : Grammar) (outer : List Tree) : Parser (List Tree) := do
  let inner ← decorators g
  if !inner.isEmpty && !outer.isEmpty then refuse
  return outer ++ inner

/-- The default export, after its word. -/
def exportDefault (g : Grammar) (place : Nat) (outer : List Tree) : Parser Tree := do
  let decorating ← innerDecorators g outer
  let here ← start
  let following ← next
  let isAbstractClass := (← isAtWord "abstract") && following.token == .word "class" &&
    !following.afterNewline
  let exported ← if isAbstractClass then do
      advance
      classFrom g here decorating false true
    else if ← isAtWord "interface" then do
      advance
      interfaceFrom g here
    else if ← isAtWord "class" then classFrom g here decorating false false
    else if (← isAtAsyncFunction) || (← isAtWord "function") then
      functionFrom g .function false false decorating
    else do
      let value ← assignmentWithIn g
      expectSemicolon
      pure value
  build place .statement [exported]

/-- A declaration that is exported. -/
def exportedDeclaration (g : Grammar) (place : Nat) (outer : List Tree) : Parser Tree := do
  let decorating ← innerDecorators g outer
  let here ← start
  if ← isAtWord "class" then return ← classFrom g here decorating true false
  if (← isAtAsyncFunction) || (← isAtWord "function") then
    return ← functionFrom g .function true false decorating
  if ← isAtConstEnum then return ← constEnum g
  if ← isAtVariables then return ← variableStatement g
  exportList g place false

/-- A declaration that a word introduces, tried as such. -/
def exportedWord? (g : Grammar) (decorating : List Tree) : Parser (Option Tree) := do
  let place ← start
  match ← word? with
  | some word => attempt (introducedDeclaration g place word true decorating)
  | none => return none

/-- An export declaration. -/
def exportDeclaration (g : Grammar) (decorating : List Tree) : Parser Tree := do
  let place ← start
  expectWord "export"
  let here ← start
  if ← eatWord "declare" then
    if let some declaration ← declaredAfter g here decorating then
      return ← build place .statement [declaration]
  if let some declaration ← exportedWord? g decorating then
    return ← build place .statement [declaration]
  if ← eatWord "import" then
    if (← isAtWord "type") && (← next).isName then advance
    let _ ← identifierName
    return ← importEquals place
  if ← eat .assign then
    let value ← expressionWithIn g
    expectSemicolon
    return ← build place .statement [value]
  if ← eatWord "as" then
    expectWord "namespace"
    let _ ← identifier
    expectSemicolon
    return ← build place .statement
  let isType ← eatWord "type"
  if ← isAt .star then return ← exportAll g place
  if isType then return ← exportList g place true
  if ← eatWord "default" then return ← exportDefault g place decorating
  let declaration ← exportedDeclaration g place decorating
  build place .statement [declaration]

/-- An item of a module: an import, an export or a statement. -/
def moduleItem (g : Grammar) : Parser Tree := do
  let decorating ← decorators g
  if ← isAtImportExpression then return ← importStatement g
  if ← isAtWord "import" then return ← importDeclaration g
  if ← isAtWord "export" then return ← exportDeclaration g decorating
  statementAfter g true decorating

end Harvest.TypeScript.Grammar
