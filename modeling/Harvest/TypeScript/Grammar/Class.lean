import Harvest.TypeScript.Grammar.Function
import Harvest.TypeScript.Grammar.Type

/-!
# Classes
-/

namespace Harvest.TypeScript.Grammar

open Harvest.TypeScript.Parser

/-- A member of a class, with what the class has to know about it. -/
structure ClassMember where
  tree : Tree
  isAbstract : Bool := false
  /-- A constructor that has a body. -/
  implementsConstructor : Bool := false

/-- What has been read of a member before its name. -/
structure MemberHead where
  place : Nat
  decorating : List Tree
  /-- `public`, `protected` or `private` was given. -/
  hasAccess : Bool
  isDeclared : Bool := false
  isStatic : Bool := false
  isAbstract : Bool := false
  isOverride : Bool := false
  isReadonly : Bool := false
  isAccessor : Bool := false

/-- A method follows the name of a member: parameters or type parameters. -/
def isAtMethod : Parser Bool := do return (← isAt .parenLeft) || (← isAt .less)

/-- A property follows the name of a member. With `lineEnds` a line end is as good as a semicolon. -/
def isAtProperty (lineEnds : Bool) : Parser Bool := do
  if (← isAt .bang) || (← isAt .colon) || (← isAt .assign) || (← isAt .braceRight) then return true
  if lineEnds then isAtSemicolon else isAt .semicolon

def isPrivate (key : Tree) : Bool :=
  match key.form? with
  | some (.privateName _) => true
  | _ => false

/-- The key spells `constructor`, as a word or as a string. -/
def isConstructorKey (key : Tree) : Bool :=
  match key.form? with
  | some (.identifier name) => name == "constructor"
  | some (.string value) => value == "constructor".toList.map Char.toNat
  | _ => false

/-- The name of a member. -/
def memberKey (g : Grammar) : Parser Tree := do
  match ← token with
  | .privateName name =>
    let place ← start
    mistakeIf (name == "constructor")
    advance
    build place (.privateName name)
  | _ => propertyName g

/-- A method after its name. An abstract method has no body, a private one no access modifier. -/
def classMethod (g : Grammar) (head : MemberHead) (key : Tree) (parameters : Parser (List Tree))
    (isAsync isGenerator : Bool) : Parser ClassMember := do
  let rest ← functionRest g parameters isAsync isGenerator
  mistakeIf (isPrivate key && head.hasAccess)
  mistakeIf (!isPrivate key && head.isAbstract && rest.body.isSome)
  let tree ← build head.place .function (key :: rest.parts head.decorating)
  return { tree, isAbstract := head.isAbstract && !isPrivate key }

/-- A property after its name: key, value, type, decorators in the order of visits. -/
def classProperty (g : Grammar) (head : MemberHead) (key : Tree) (isOptional : Bool) :
    Parser ClassMember := do
  if isConstructorKey key then refuse
  mistakeIf (isPrivate key && (head.isDeclared || head.hasAccess))
  if !isOptional then
    let _ ← eat .bang
  let typing ← typing? g
  let enter (c : Context) : Context := { enterBraces c with inField := true }
  let value ← within enter do
    if ← eat .assign then return [← g .assignment] else return []
  mistakeIf !(← eatSemicolon)
  mistakeIf (!isPrivate key && head.isAbstract && !value.isEmpty)
  let tree ← build head.place .property (key :: (value ++ typing ++ head.decorating))
  return { tree, isAbstract := head.isAbstract && !isPrivate key && !head.isAccessor }

/-! ## Constructors -/

/-- A parameter of a constructor. A modifier makes it a property, which must be an identifier. -/
def constructorParameter (g : Grammar) : Parser Tree := do
  let place ← start
  let access ← modifier ["public", "protected", "private"]
  let override ← modifier ["override"]
  let isReadonly ← modifier ["readonly"]
  let pattern ← plainParameter g
  if access.isNone && override.isNone && isReadonly.isNone then return pattern
  match pattern with
  | .node (.identifier _) .. => build place .declarator [pattern]
  | .node .bindingDefault .. => build place .declarator [pattern]
  | _ => refuse

/-- A parameter that declares a property. -/
def declaresProperty (parameter : Tree) : Bool := parameterHasForm .declarator parameter

/-- A parameter with a default, whether it declares a property or not. -/
def hasDefault (parameter : Tree) : Bool :=
  match parameterPattern parameter with
  | some (.node .declarator _ [pattern]) => pattern.form? == some .bindingDefault
  | some pattern => pattern.form? == some .bindingDefault
  | none => false

/-- A constructor after its name. -/
def constructorMember (g : Grammar) (head : MemberHead) (key : Tree) : Parser ClassMember := do
  mistakeIf head.isOverride
  let typeParams ← if ← isAt .less then do
      mistake
      typeParameters g false true
    else pure []
  expect .parenLeft
  let enter (c : Context) : Context := { enterBraces c with
    inAsync := false, inGenerator := false, inField := false, inParameters := true, inFunction := false }
  let params ← within enter (parameterList g (constructorParameter g))
  expect .parenRight
  let result ← if ← isAt .colon then do
      mistake
      typing? g
    else pure []
  let isSimple := isSimpleList params
  let body ← within (fun c => { c with inField := false }) (functionBody g false false isSimple)
  mistakeIf (body.isNone && params.any (fun p => declaresProperty p || hasDefault p))
  mistakeIf head.isStatic
  mistakeIf head.isAbstract
  let tree ← build head.place .function (key :: (params ++ body.toList ++ typeParams ++ result))
  return { tree, implementsConstructor := body.isSome }

/-! ## Members -/

/-- The modifiers `abstract`, `readonly`, `override` and `static` before a name. -/
def memberModifiers (head : MemberHead) : Parser MemberHead :=
  extend (fun head => do
    match ← modifier ["abstract", "readonly", "override", "static"] true with
    | none => return none
    | some "abstract" =>
      mistakeIf (head.isAbstract || head.isOverride || head.isReadonly)
      return some { head with isAbstract := true }
    | some "override" =>
      mistakeIf (head.isOverride || head.isReadonly || head.isDeclared)
      mistakeIf !(← context).hasSuperclass
      return some { head with isOverride := true }
    | some "readonly" =>
      mistakeIf head.isReadonly
      return some { head with isReadonly := true }
    | some _ =>
      mistakeIf head.isOverride
      return some { head with isStatic := true }) head

/-- A block that runs when the class is made. -/
def staticBlock (g : Grammar) (head : MemberHead) : Parser ClassMember := do
  let enter (c : Context) : Context := { enterBraces c with
    inStaticBlock := true, inField := true, allowsUsing := true }
  let body ← within enter (block g)
  return { tree := ← build head.place .statement [body] }

/-- A getter or a setter after the word that introduces it. -/
def accessorMember (g : Grammar) (head : MemberHead) (isGetter : Bool) : Parser ClassMember := do
  let key ← memberKey g
  mistakeIf head.isReadonly
  mistakeIf (isConstructorKey key)
  classMethod g head key (if isGetter then getterParameters g else setterParameters g) false false

/-- A member from its name on. -/
def memberFromKey (g : Grammar) (head : MemberHead) : Parser ClassMember := do
  let key ← memberKey g
  let isOptional ← eat .question
  if ← isAtMethod then
    mistakeIf (head.isReadonly || head.isDeclared)
    if isConstructorKey key then return ← constructorMember g head key
    return ← classMethod g head key (formalParameters g) false false
  let generatorOnNextLine := (← afterNewline) && (← isAt .star)
  let introducesAccessor := (key.name? == some "get" || key.name? == some "set") &&
    !(← isAtProperty false) && !generatorOnNextLine
  if !introducesAccessor && (← isAtProperty true) then return ← classProperty g head key isOptional
  if key.name? == some "async" && !(← afterNewline) then
    if (← modifier ["override"]).isSome then mistake
    let isGenerator ← eat .star
    let key ← memberKey g
    mistakeIf (isConstructorKey key)
    mistakeIf head.isReadonly
    let _ ← eat .question
    return ← classMethod g head key (formalParameters g) true isGenerator
  if introducesAccessor then return ← accessorMember g head (key.name? == some "get")
  refuse

/-- A member after its modifiers. -/
def memberAfterModifiers (g : Grammar) (head : MemberHead) : Parser ClassMember := do
  if head.isStatic && (← isAt .braceLeft) then
    mistakeIf (head.isDeclared || head.hasAccess || head.isAbstract || head.isOverride || head.isReadonly)
    return ← staticBlock g head
  if !head.isAbstract && !head.isOverride && !head.hasAccess then
    if let some tree ← indexSignature? g then return { tree }
  if ← eat .star then
    let key ← memberKey g
    mistakeIf head.isReadonly
    mistakeIf (isConstructorKey key)
    return ← classMethod g head key (formalParameters g) false true
  memberFromKey g head

/-- A word that modifies a member unless it is the member's own name. The answer says whether it was
taken as a modifier; a member that it names is complete. -/
def wordModifier (g : Grammar) (head : MemberHead) (name : String) (lineEnds : Bool) :
    Parser (Bool × Option ClassMember) := do
  let place ← start
  if !(← eatWord name) then return (false, none)
  let key ← build place (.identifier name)
  if ← isAtMethod then
    return (true, some (← classMethod g head key (formalParameters g) false false))
  if (← isAt .question) || (← isAtProperty lineEnds) then
    let isOptional ← eat .question
    return (true, some (← classProperty g head key isOptional))
  return (true, none)

/-- A member of a class. -/
def classMember (g : Grammar) : Parser ClassMember := do
  let place ← start
  let decorating ← decorators g
  let head : MemberHead := { place, decorating, hasAccess := false }
  let (declaredFirst, complete) ← wordModifier g head "declare" true
  if let some member := complete then return member
  let access ← modifier ["public", "protected", "private"]
  let head := { head with hasAccess := access.isSome }
  let (declaredSecond, complete) ←
    if declaredFirst then pure (false, none) else wordModifier g head "declare" true
  if let some member := complete then return member
  let head := { head with isDeclared := declaredFirst || declaredSecond }
  let (isStatic, complete) ← wordModifier g head "static" false
  if let some member := complete then return member
  let head := { head with isStatic }
  let (accessorFirst, complete) ← wordModifier g head "accessor" true
  if let some member := complete then return member
  let head ← memberModifiers head
  let (accessorSecond, complete) ←
    if accessorFirst || head.isReadonly then pure (false, none) else wordModifier g head "accessor" true
  if let some member := complete then return member
  memberAfterModifiers g { head with isAccessor := accessorFirst || accessorSecond }

/-- The members of a class, with their braces. -/
def classMembers (g : Grammar) : Parser (List ClassMember) := do
  expect .braceLeft
  let members ← many do
    if ← isAt .braceRight then return none
    if ← eat .semicolon then return some none
    return some (some (← classMember g))
  expect .braceRight
  return members.filterMap id

/-! ## Classes -/

/-- The class that another extends, with its type arguments. -/
def superclass (g : Grammar) : Parser (Tree × List Tree) := do
  let tree ← g .leftHandSide
  let types ← if ← isAtAngle then typeArguments g else pure []
  return (tree, types)

/-- Names of interfaces, with their type arguments. -/
def heritage (g : Grammar) : Parser (List Tree) := do
  let item : Parser Tree := do
    let place ← start
    entityName
    let types ← if ← isAtAngle then typeArguments g else pure []
    build place .type types
  let first ← item
  let others ← many do
    if ← eat .comma then return some (← item) else return none
  return first :: others

/-- Names of types that no class and no interface may take. -/
def builtinTypes : List String := [
  "any", "unknown", "never", "number", "bigint", "boolean", "string", "symbol", "void", "object",
  "null", "intrinsic"]

/-- At most one constructor has a body. -/
def hasSecondConstructor (members : List ClassMember) : Bool :=
  (members.filter (·.implementsConstructor)).length > 1

/-- A class from the word `class` on. Its parts are its decorators, its members, the class it extends,
and then types. -/
def classFrom (g : Grammar) (place : Nat) (decorating : List Tree) (requiresName isAbstract : Bool) :
    Parser Tree := do
  expectWord "class"
  if ← isAtWord "let" then refuse
  let name ← if (← isAtWord "implements") && !requiresName then pure none else optionalName requiresName
  mistakeIf (name.any fun tree => tree.name?.any builtinTypes.contains)
  let typeParams ← typeParameters? g true true
  let (base, baseTypes) ← if ← eatWord "extends" then do
      let (base, types) ← superclass g
      if ← eat .comma then
        let _ ← heritage g
        mistake
      pure ([base], types)
    else pure ([], [])
  let interfaces ← if ← eatWord "implements" then heritage g else pure []
  if (← isAtWord "extends") || (← isAtWord "implements") then refuse
  let members ← within (fun c => { c with hasSuperclass := !base.isEmpty }) (classMembers g)
  mistakeIf (!(← context).ambient && hasSecondConstructor members)
  mistakeIf (!isAbstract && members.any (·.isAbstract))
  build place .classBody
    (name.toList ++ decorating ++ members.map (·.tree) ++ base ++ typeParams ++ baseTypes ++ interfaces)

end Harvest.TypeScript.Grammar
