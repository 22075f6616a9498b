import Harvest.TypeScript.Grammar.Function
import Harvest.TypeScript.Grammar.Target

/-!
# Parentheses and arrow functions

A parenthesis opens an expression or the parameters of an arrow function, and which of the two is known
only behind it. Its items are therefore read as expressions that may carry an optional mark, a type and
a default, and judged afterwards.
-/

namespace Harvest.TypeScript.Grammar

open Harvest.TypeScript.Parser

/-- An item in parentheses; `patterned` when only a parameter can look like it. -/
structure CoverItem where
  tree : Tree
  patterned : Bool

/-- Finishes an assignment whose left side has been read. -/
def assignmentAfter (g : Grammar) (place : Nat) (target : Tree) : Parser Tree := do
  let lexeme := (← get).current
  match lexeme.token with
  | .punctuator .assign =>
    mistakeIf !(isAssignable target)
    advance
    let value ← g .assignment
    build place (.assignment true) [target, value]
  | .punctuator .compound | .punctuator .slashAssign =>
    mistakeIf !(isSimpleTarget target)
    advance
    let value ← g .assignment
    build place (.assignment false) [target, value]
  | .punctuator .greater =>
    match lexeme.here with
    | '>' :: '>' :: '=' :: rest =>
      mistakeIf !(isSimpleTarget target)
      advanceTo rest (lexeme.start + 3)
      let value ← g .assignment
      build place (.assignment false) [target, value]
    | '>' :: '>' :: '>' :: '=' :: rest =>
      mistakeIf !(isSimpleTarget target)
      advanceTo rest (lexeme.start + 4)
      let value ← g .assignment
      build place (.assignment false) [target, value]
    | _ => return target
  | _ => return target

/-- The branches of a conditional expression, from its question mark on. -/
def branches (g : Grammar) (place : Nat) (condition : Tree) : Parser Tree := do
  expect .question
  let first ← within (fun c =>
    { c with inConditional := true, expectsColon := true, withoutIn := false }) (g .assignment)
  expect .colon
  let second ← within (fun c => { c with inConditional := true, expectsColon := false }) (g .assignment)
  build place .conditional [condition, first, second]

/-- The expression of an item. When it starts with a name it is read without a conditional, so that
the question mark of an optional parameter is left alone. -/
def coverExpression (g : Grammar) : Parser Tree := do
  let place ← start
  if ← isAtName then
    let tree ← g (.operators 0)
    if isArrow tree then return tree
    assignmentAfter g place tree
  else if (← isAt .ellipsis) && (← next).isWord then
    advance
    let operand ← g (.operators 0)
    build place .spread [operand]
  else spreadable g

/-- The question mark here belongs to an optional parameter. -/
def isAtOptionalMark : Parser Bool := do
  if !(← isAt .question) then return false
  return (← nextIs .comma) || (← nextIs .colon) || (← nextIs .parenRight) || (← nextIs .assign)

/-- The pattern of an item: the operand, when it is spread. -/
def coverPattern : Tree → Tree
  | .node .spread _ [operand] => operand
  | tree => tree

/-- One item in parentheses. -/
def coverItem (g : Grammar) : Parser CoverItem := do
  let place ← start
  modify fun s => { s with arrowStart := some place }
  let modified ← parameterModifier
  let tree ← coverExpression g
  let optional ← isAtOptionalMark
  if optional then
    advance
    if tree.name?.isNone then refuse
  let tree ←
    if (← isAt .question) && tree.form? != some .spread then branches g place tree else pure tree
  mistakeIf modified
  if optional || (← isAt .colon) then
    let pattern := coverPattern tree
    if pattern.form? == some (.assignment true) then refuse
    mistakeIf !(isPattern true pattern)
    let typing ← typing? g
    let tree ← annotate tree typing
    if ← eat .assign then
      let default ← g .assignment
      return ⟨← build place .bindingDefault [tree, default], true⟩
    return ⟨tree, true⟩
  return ⟨tree, false⟩

/-- The items between parentheses, and whether a comma ends them. -/
def coverItems (g : Grammar) : Parser (List CoverItem × Bool) :=
  within (fun c => { c with expectsColon := false, withoutIn := false }) do
    expect .parenLeft
    let items ← many do
      if ← isAt .parenRight then return none
      let item ← coverItem g
      if ← isAt .parenRight then return some (item, false)
      expect .comma
      return some (item, true)
    expect .parenRight
    return (items.map Prod.fst, items.getLast?.any Prod.snd)

/-- The items read as parameters: a rest stands last, and no comma follows it. -/
def coverParameters (trailing : Bool) : List CoverItem → Bool
  | [] => true
  | item :: more =>
    let pattern := coverPattern item.tree
    let isRest := item.tree.form? == some .spread
    (!isRest || (more.isEmpty && !trailing && pattern.form? != some (.assignment true))) &&
      (item.patterned || isPattern true pattern) && coverParameters trailing more

/-- The parameters of an arrow function, once it is known to be one. -/
def arrowParameters (items : List CoverItem) (trailing : Bool) : Parser (List Tree) := do
  let parameters := items.map (·.tree)
  mistakeIf !(coverParameters trailing items)
  mistakeIf (anyBindsRestricted parameters)
  return parameters

/-- An arrow function after its `=>`. -/
def arrowFrom (g : Grammar) (place : Nat) (isAsync : Bool) (parameters types : List Tree) :
    Parser Tree := do
  let body ← arrowBody g isAsync (isSimpleList parameters)
  build place .arrow (parameters ++ body :: types)

/-- In a branch of a conditional expression a colon may give the result type or end the branch: the
first reading counts if the whole arrow function can be read and, where a colon has to follow the
branch, one does. -/
def conditionalArrow (g : Grammar) (place : Nat) (isAsync : Bool) (items : List CoverItem)
    (trailing : Bool) : Parser (Option Tree) := do
  let result ← resultType g .colon
  expect .arrow
  let parameters ← arrowParameters items trailing
  let arrow ← arrowFrom g place isAsync parameters [result]
  if (← context).expectsColon && !(← isAt .colon) then return none
  return some arrow

/-- The result type of an arrow function, provided the arrow follows. -/
def arrowResult (g : Grammar) : Parser (Option Tree) := do
  let result ← resultType g .colon
  return if ← isAt .arrow then some result else none

/-- A parenthesized expression: its items, none spread, without a comma at the end. -/
def parenthesized (place : Nat) (items : List Tree) (trailing : Bool) : Parser Tree := do
  if trailing || items.any (fun item => item.form? == some .spread) then refuse
  match items with
  | [] => refuse
  | [item] => build place .paren [item]
  | first :: others =>
    let last := (others.getLast?.getD first).span.stop
    build place .paren [.node .sequence ⟨first.span.start, last⟩ items]

/-- An object literal that holds a shorthand with a default. -/
def holdsShorthandDefault (tree : Tree) : Bool :=
  match tree with
  | .node (.object _) _ properties => properties.any fun property =>
    match property.form? with
    | some (.shorthandDefault _) => true
    | _ => false
  | _ => false

/-- What a parenthesis opens. After `async`, whose place is given, it is the parameters of an
asynchronous arrow function or the arguments of a call. -/
def parenthesisOrArrow (g : Grammar) (mayBeArrow : Bool) (async : Option Text.Span) : Parser Tree := do
  let here ← start
  let place := (async.map (·.start)).getD here
  let (items, trailing) ← coverItems g
  if (← context).inConditional && (← isAt .colon) then
    if let some arrow ← attempt (conditionalArrow g place async.isSome items trailing) then
      return arrow
  let result ← if !(← context).expectsColon && (← isAt .colon) then attempt (arrowResult g) else pure none
  if items.any (·.patterned) || result.isSome || (← isAt .arrow) then
    if (← afterNewline) || !mayBeArrow then refuse
    expect .arrow
    let parameters ← arrowParameters items trailing
    arrowFrom g place async.isSome parameters result.toList
  else
    let trees := items.map (·.tree)
    mistakeIf (trees.any holdsShorthandDefault)
    match async with
    | some span =>
      return .call (← spanFrom place) false (.node (.identifier "async") span []) trees []
    | none => parenthesized place trees trailing

/-- An asynchronous arrow function with type parameters, after `async`. -/
def genericAsyncArrow (g : Grammar) (place : Nat) : Parser (Option Tree) := do
  let typeParams ← typeParameters g false false
  expect .parenLeft
  let parameters ← formalParameters g
  expect .parenRight
  let result ← if ← isAt .colon then pure [← resultType g .colon] else pure []
  expect .arrow
  return some (← arrowFrom g place true parameters (typeParams ++ result))

end Harvest.TypeScript.Grammar
