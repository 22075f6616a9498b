import Harvest.TypeScript.Grammar.Basic

/-!
# Binding patterns and parameters
-/

namespace Harvest.TypeScript.Grammar

open Harvest.TypeScript.Parser

/-- A type belongs to the pattern it follows: it becomes its last part. -/
def annotate (pattern : Tree) (typing : List Tree) : Parser Tree := do
  match pattern with
  | .node form span parts => return .node form ⟨span.start, (← get).lastStop⟩ (parts ++ typing)
  | call => return call

/-- A pattern, possibly with a default. -/
def bindingElement (g : Grammar) : Parser Tree := do
  let place ← start
  let target ← g .binding
  if ← eat .assign then
    let default ← assignmentWithIn g
    mistakeIf (← context).ambient
    build place .bindingDefault [target, default]
  else return target

/-- An optional mark after an array or object pattern, which only ambient declarations have. -/
def ambientOptional : Parser Unit := do
  if (← context).ambient || (← context).declarationFile then
    let _ ← eat .question

/-- An array pattern. Only its last element may be a rest, and no comma follows it. -/
def arrayBinding (g : Grammar) : Parser Tree := do
  let place ← start
  expect .bracketLeft
  let elements ← many do
    if ← isAt .bracketRight then return none
    let here ← start
    if ← eat .comma then return some (.node .hole ⟨here, here⟩ [])
    if ← eat .ellipsis then
      let target ← g .binding
      let element ← build here .rest [target]
      if !(← isAt .bracketRight) then
        mistake
        expect .comma
      return some element
    let element ← bindingElement g
    if !(← isAt .bracketRight) then expect .comma
    return some element
  expect .bracketRight
  ambientOptional
  build place (.array false) elements

/-- A property of an object pattern. -/
def propertyBinding (g : Grammar) : Parser Tree := do
  let place ← start
  if ← eat .ellipsis then
    let target ← g .binding
    build place .rest [target]
  else
    let key ← propertyName g
    if ← eat .colon then
      let target ← bindingElement g
      build place .property [key, target]
    else
      match key.name? with
      | none => refuse
      | some name =>
        if ← eat .assign then
          let default ← assignmentWithIn g
          build place .bindingDefault [key, default]
        else
          mistakeIf (isReserved name)
          build place (.shorthand name)

/-- The rest of an object pattern stands last and collects into an identifier. -/
def checkObjectRest : List Tree → Bool → Parser Unit
  | [], _ => pure ()
  | [.node .rest _ [target]], trailing =>
    if target.name?.isSome then mistakeIf trailing else refuse
  | .node .rest .. :: more, trailing => do
    mistakeIf !more.isEmpty
    checkObjectRest more trailing
  | _ :: more, trailing => checkObjectRest more trailing

/-- An object pattern. -/
def objectBinding (g : Grammar) : Parser Tree := do
  let place ← start
  expect .braceLeft
  let properties ← many do
    if ← isAt .braceRight then return none
    let property ← propertyBinding g
    if ← isAt .braceRight then return some (property, false)
    expect .comma
    return some (property, true)
  expect .braceRight
  let trees := properties.map Prod.fst
  checkObjectRest trees (properties.getLast?.any Prod.snd)
  ambientOptional
  build place (.object false) trees

/-- The target of a binding: an identifier or a pattern. -/
def binding (g : Grammar) : Parser Tree := do
  match ← token with
  | .word _ => boundIdentifier
  | .punctuator .bracketLeft => arrayBinding g
  | .punctuator .braceLeft => objectBinding g
  | _ => refuse

/-! ## Parameters -/

/-- A parameter that is not a rest: a pattern, an optional mark, a type and a default. -/
def plainParameter (g : Grammar) : Parser Tree := do
  let place ← start
  let modified ← parameterModifier
  let target ← bindingElement g
  let optional ← eat .question
  if optional && target.form? == some .bindingDefault && !(← context).ambient then refuse
  let typing ← typing? g
  mistakeIf (target.form? == some .bindingDefault && !typing.isEmpty)
  let target ← annotate target typing
  let pattern ← if ← eat .assign then do
      mistakeIf optional
      let default ← g .assignment
      mistakeIf (← context).ambient
      build place .bindingDefault [target, default]
    else pure target
  mistakeIf modified
  return pattern

/-- A rest parameter, after its dots. -/
def restParameter (g : Grammar) (place : Nat) : Parser Tree := do
  let target ← g .binding
  let default ← if ← eat .assign then do
      mistake
      pure [← g .assignment]
    else pure []
  let typing ← typing? g
  build place .rest ((target :: default) ++ typing)

/-- A list of parameters up to its closing parenthesis, each with its decorators. A rest parameter
stands last and no comma follows it. -/
def parameterList (g : Grammar) (parameter : Parser Tree) : Parser (List Tree) :=
  many do
    if ← isAt .parenRight then return none
    let place ← start
    let decorating ← decorators g
    let here ← start
    if ← eat .ellipsis then
      let pattern ← restParameter g here
      if !(← isAt .parenRight) then
        mistake
        expect .comma
      return some (← build place .parameter (decorating ++ [pattern]))
    let pattern ← parameter
    let tree ← build place .parameter (decorating ++ [pattern])
    if !(← isAt .parenRight) then expect .comma
    return some tree

/-- The parameters of a function. -/
def formalParameters (g : Grammar) : Parser (List Tree) := parameterList g (plainParameter g)

/-- The pattern of a parameter. -/
def parameterPattern : Tree → Option Tree
  | .node .parameter _ parts => parts.getLast?
  | tree => some tree

/-- The parameter has the given form. -/
def parameterHasForm (form : Form) (parameter : Tree) : Bool :=
  (parameterPattern parameter).any fun pattern => pattern.form? == some form

/-- A plain list of identifiers, without patterns, defaults or a rest. -/
def isSimpleList (parameters : List Tree) : Bool :=
  parameters.all fun parameter => (parameterPattern parameter).any fun p => p.name?.isSome

/-- The parameters of a signature, with the closing parenthesis: no defaults. -/
def signatureParameters (g : Grammar) : Parser (List Tree) := do
  let parameters ← formalParameters g
  if parameters.any (parameterHasForm .bindingDefault) then refuse
  expect .parenRight
  return parameters

end Harvest.TypeScript.Grammar
