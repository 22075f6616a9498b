import Harvest.TypeScript.Grammar.Function

/-!
# Array, object, template and regular expression literals
-/

namespace Harvest.TypeScript.Grammar

open Harvest.TypeScript.Parser

/-- An array literal. -/
def arrayLiteral (g : Grammar) : Parser Tree := do
  let place ← start
  expect .bracketLeft
  let elements ← many do
    if ← isAt .bracketRight then return none
    let here ← start
    if ← eat .comma then return some (.node .hole ⟨here, here⟩ [], false)
    let element ← spreadable g
    if ← isAt .bracketRight then return some (element, false)
    expect .comma
    return some (element, true)
  expect .bracketRight
  build place (.array (elements.getLast?.any Prod.snd)) (elements.map Prod.fst)

/-! ## Objects -/

/-- A method of an object literal after its key. -/
def objectMethod (g : Grammar) (place : Nat) (key : Tree) (parameters : Parser (List Tree))
    (isAsync isGenerator : Bool) : Parser Tree := do
  let rest ← functionRest g parameters isAsync isGenerator
  build place .method (key :: rest.parts)

/-- A getter, a setter or an asynchronous method, after the word that introduces it. -/
def introducedMethod (g : Grammar) (place : Nat) (word : String) : Parser Tree := do
  match word with
  | "get" => objectMethod g place (← propertyName g) (getterParameters g) false false
  | "set" => objectMethod g place (← propertyName g) (setterParameters g) false false
  | "async" =>
    let isGenerator ← eat .star
    objectMethod g place (← propertyName g) (formalParameters g) true isGenerator
  | _ => refuse

/-- A property of an object literal. A shorthand with a default is read too, since a pattern may hold
one. -/
def objectProperty (g : Grammar) : Parser Tree := do
  let place ← start
  if ← eat .ellipsis then
    let operand ← assignmentWithIn g
    return ← build place .spread [operand]
  if ← eat .star then
    let key ← propertyName g
    return ← objectMethod g place key (formalParameters g) false true
  let modified ← parameterModifier
  let key ← propertyName g
  if ← eat .colon then
    let value ← assignmentWithIn g
    return ← build place .property [key, value]
  if (← isAt .parenLeft) || (← isAt .less) then
    return ← objectMethod g place key (formalParameters g) false false
  match key.name? with
  | none => refuse
  | some name =>
    if ← eat .question then mistake
    if (← isAt .assign) || (← isAt .comma) || (← isAt .braceRight) then
      mistakeIf (isReserved name)
      if ← eat .assign then
        let default ← assignmentWithIn g
        return ← build place (.shorthandDefault name) [default]
      return ← build place (.shorthand name)
    mistakeIf modified
    introducedMethod g place name

/-- An object literal. -/
def objectLiteral (g : Grammar) : Parser Tree := do
  let place ← start
  within (fun c => { c with expectsColon := false }) do
    expect .braceLeft
    let properties ← many do
      if ← isAt .braceRight then return none
      let property ← objectProperty g
      if ← isAt .braceRight then return some (property, false)
      expect .comma
      return some (property, true)
    expect .braceRight
    build place (.object (properties.getLast?.any Prod.snd)) (properties.map Prod.fst)

/-! ## Templates -/

/-- The substitutions of a template, from its opening backtick to its closing one. -/
def substitutions (g : Grammar) (isTagged : Bool) : Parser (List Tree) :=
  within (fun c => { c with expectsColon := false }) do
    many do
      let lexeme := (← get).current
      let opens := lexeme.token == .backtick || lexeme.token == .punctuator .braceRight
      if !opens then refuse
      match templateChunk lexeme.rest 0 lexeme.stop true with
      | none => refuse
      | some chunk =>
        if !chunk.wellFormed && !isTagged then refuse
        advanceTo chunk.rest chunk.pos
        if chunk.closed then return none
        return some (← expressionWithIn g)

def templateLiteral (g : Grammar) : Parser Tree := do
  let place ← start
  let parts ← substitutions g false
  build place .template parts

/-! ## Regular expressions -/

/-- A regular expression, which the tokens show only by its opening slash. -/
def patternLiteral : Parser Tree := do
  let lexeme := (← get).current
  match regularExpression lexeme.here lexeme.start with
  | none => refuse
  | some (validFlags, rest, stop) =>
    mistakeIf !validFlags
    advanceTo rest stop
    build lexeme.start .literal

end Harvest.TypeScript.Grammar
