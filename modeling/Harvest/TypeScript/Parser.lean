import Harvest.TypeScript.Lexer
import Harvest.TypeScript.Tree

/-!
# Parsers

A parser reads a state and either answers with a value and a later state or refuses. The state holds
the current token, what surrounds it (`Context`) and where an arrow function may start.

Some mistakes are *tolerable*: the grammar can go on after them, and they only make the file invalid.
While the grammar tries a reading that it may still give up (`attempt`), tolerable mistakes pass; at
all other times they refuse the file at once.

The grammar is recursive in many places. Each place where it calls itself is a `Rule`, and a
`Grammar` answers rules; `Harvest.TypeScript.Grammar` ties the knot by recursion on a depth.
-/

namespace Harvest.TypeScript

open Harvest.Text (Span)

/-- What surrounds the current token. -/
structure Context where
  /-- The file only declares. -/
  declarationFile : Bool := false
  /-- Inside a declaration without an implementation. -/
  ambient : Bool := false
  inAsync : Bool := false
  inGenerator : Bool := false
  inFunction : Bool := false
  inParameters : Bool := false
  /-- Inside a function that binds `new.target`. -/
  hasNewTarget : Bool := false
  inField : Bool := false
  inStaticBlock : Bool := false
  /-- The class around extends another. -/
  hasSuperclass : Bool := false
  breakable : Bool := false
  continuable : Bool := false
  /-- Labels of the enclosing statements. -/
  labels : List String := []
  /-- An `in` is no operator here, since it divides the head of a loop. -/
  withoutIn : Bool := false
  /-- Between the `(` and the first separator of a loop head. -/
  inLoopHead : Bool := false
  /-- The loop of that head waits for its elements. -/
  loopWaits : Bool := false
  /-- Inside the branches of a conditional expression. -/
  inConditional : Bool := false
  /-- Inside the first branch of a conditional expression, which a colon ends. -/
  expectsColon : Bool := false
  /-- A type here must not be conditional. -/
  withoutConditionalType : Bool := false
  /-- Resource declarations may stand here. -/
  allowsUsing : Bool := true
  /-- Tolerable mistakes pass. -/
  tolerant : Bool := false

/-- A place between two tokens: the text behind the last token that was taken, and the token that comes
next in it. -/
structure Place where
  text : List Char
  /-- Where the last token that was taken ends. -/
  lastStop : Nat
  current : Lexeme
  lexed : current = lex text lastStop

/-- The place in front of a text. -/
def Place.before (text : List Char) (pos : Nat) : Place := ⟨text, pos, lex text pos, rfl⟩

structure State extends Place where
  context : Context
  /-- Where an arrow function may start. -/
  arrowStart : Option Nat
  /-- The number of characters of the file, which bounds every repetition. -/
  size : Nat

abbrev Parser := StateT State Option

/-- The places where the grammar calls itself. -/
inductive Rule where
  /-- A statement; declarations may stand everywhere but under a condition, a loop or a label. -/
  | statement (declarations : Bool)
  | moduleItem
  | assignment
  /-- An expression of operators that bind tighter than `above`. -/
  | operators (above : Nat)
  | unary
  | leftHandSide
  /-- The operand of `new`: a construction or a member access without calls. -/
  | constructed
  | binding
  | type
  | plainType
  | typeOperator
  /-- A decorator, from its `@` on. -/
  | decorator

abbrev Grammar := Rule → Parser Tree

namespace Parser

variable {α : Type}

/-- Refuses. -/
def refuse : Parser α := failure

def context : Parser Context := do return (← get).context

/-- Runs a parser in a changed context and restores the context after it. -/
def within (change : Context → Context) (parser : Parser α) : Parser α := do
  let outer ← context
  modify fun s => { s with context := change s.context }
  let result ← parser
  modify fun s => { s with context := outer }
  return result

/-- Refuses the file for a mistake, unless mistakes pass for now. -/
def mistake : Parser Unit := do
  if (← context).tolerant then pure () else refuse

/-- Refuses the file when a condition holds, unless mistakes pass for now. -/
def mistakeIf (condition : Bool) : Parser Unit := do
  if condition then mistake else pure ()

/-- Tries a reading: if it refuses or finds nothing, the state is as before. Tolerable mistakes
inside it pass. -/
def attempt (parser : Parser (Option α)) : Parser (Option α) := fun s =>
  let trial := { s with context := { s.context with tolerant := true } }
  match parser trial with
  | some (some value, after) =>
    some (some value, { after with
      context := { after.context with tolerant := s.context.tolerant } })
  | _ => some (none, s)

/-- Asks a question about what follows, without taking anything. -/
def ahead (question : Parser Bool) : Parser Bool := fun s =>
  let trial := { s with context := { s.context with tolerant := true } }
  match question trial with
  | some (answer, _) => some (answer, s)
  | none => some (false, s)

/-! ## Repetition -/

/-- Repeats a step while it answers, at most `bound` times. -/
def repeatUpTo : Nat → Parser (Option α) → Parser (List α)
  | 0, _ => refuse
  | bound + 1, step => do
    match ← step with
    | none => return []
    | some value => return value :: (← repeatUpTo bound step)

/-- Repeats a step while it answers. Each step takes a token, so the size of the file is a bound. -/
def many (step : Parser (Option α)) : Parser (List α) := do
  repeatUpTo ((← get).size + 2) step

/-- Extends a value while a step answers, at most `bound` times. -/
def extendUpTo : Nat → (α → Parser (Option α)) → α → Parser α
  | 0, _, _ => refuse
  | bound + 1, step, value => do
    match ← step value with
    | none => return value
    | some longer => extendUpTo bound step longer

/-- Extends a value while a step answers. -/
def extend (step : α → Parser (Option α)) (value : α) : Parser α := do
  extendUpTo ((← get).size + 2) step value

/-! ## Tokens -/

def token : Parser Token := do return (← get).current.token

/-- Where the current token starts. -/
def start : Parser Nat := do return (← get).current.start

/-- A line ends before the current token. -/
def afterNewline : Parser Bool := do return (← get).current.afterNewline

/-- The token after the current one. -/
def next : Parser Lexeme := do
  let s ← get
  return lex s.current.rest s.current.stop

/-- Goes on to the next token. -/
def advance : Parser Unit :=
  modify fun s => { s with toPlace := .before s.current.rest s.current.stop }

/-- Takes a stretch of text that was read outside the token stream. -/
def advanceTo (rest : List Char) (pos : Nat) : Parser Unit :=
  modify fun s => { s with toPlace := .before rest pos }

def isAt (p : Punctuator) : Parser Bool := do return (← token) == .punctuator p

def isAtWord (name : String) : Parser Bool := do return (← token) == .word name

/-- The spelling of the current token, if it is a word. -/
def word? : Parser (Option String) := do
  match ← token with
  | .word name => return some name
  | _ => return none

def isAtAnyWord : Parser Bool := do return (← word?).isSome

/-- The current token is a word that may be an identifier. -/
def isAtName : Parser Bool := do return (← word?).any fun name => !isReserved name

def isAtString : Parser Bool := do
  match ← token with
  | .string .. => return true
  | _ => return false

def nextIs (p : Punctuator) : Parser Bool := do return (← next).token == .punctuator p

def nextIsWord (name : String) : Parser Bool := do return (← next).token == .word name

/-- The next token is a word on the line of the current one. -/
def nextIsWordHere : Parser Bool := do
  let following ← next
  return following.isWord && !following.afterNewline

def eat (p : Punctuator) : Parser Bool := do
  if ← isAt p then
    advance
    return true
  return false

def eatWord (name : String) : Parser Bool := do
  if ← isAtWord name then
    advance
    return true
  return false

def expect (p : Punctuator) : Parser Unit := do
  if ← eat p then pure () else refuse

def expectWord (name : String) : Parser Unit := do
  if ← eatWord name then pure () else refuse

def isAtEnd : Parser Bool := do return (← token) == .endOfFile

/-- A semicolon stands here, or one may be left out: before a closing brace, at the end of the file
and after a line end. -/
def isAtSemicolon : Parser Bool := do
  if (← isAt .semicolon) || (← isAt .braceRight) || (← isAtEnd) then return true
  afterNewline

/-- Takes a semicolon, or accepts that it is left out. -/
def eatSemicolon : Parser Bool := do
  if ← eat .semicolon then return true
  isAtSemicolon

def expectSemicolon : Parser Unit := do
  if ← eatSemicolon then pure () else refuse

/-! ## Trees -/

/-- The span from a place to the end of the last token taken. -/
def spanFrom (start : Nat) : Parser Span := do return ⟨start, (← get).lastStop⟩

/-- A tree from a place to the end of the last token taken. -/
def build (start : Nat) (form : Form) (parts : List Tree := []) : Parser Tree := do
  return .node form (← spanFrom start) parts

/-- Items up to a closing punctuator, which is taken too; commas divide them and may end them. -/
def commaSeparated (close : Punctuator) (item : Parser Tree) : Parser (List Tree) := do
  let items ← many do
    if ← isAt close then return none
    let value ← item
    if !(← isAt close) then expect .comma
    return some value
  expect close
  return items

end Parser

end Harvest.TypeScript
