/-!
# Glob patterns

A pattern has to match a whole text. `?` stands for any character and `*` for any sequence, slashes
included; `**/` for nothing or any sequence that ends in a slash; a class in brackets for one character.
A `**` has to be a whole component of the pattern.
-/

namespace Harvest.Glob

/-- An inclusive range of characters. -/
structure Range where
  low : Char
  high : Char
  deriving DecidableEq, Repr

def Range.contains (range : Range) (c : Char) : Bool := range.low ≤ c && c ≤ range.high

inductive Token where
  | character (c : Char)
  | anyCharacter
  | sequence
  /-- Any number of leading directories; at the end of a pattern, all that is left. -/
  | directories
  | within (ranges : List Range)
  | without (ranges : List Range)
  deriving DecidableEq, Repr

/-- A compiled pattern. -/
structure Pattern where
  tokens : List Token
  deriving DecidableEq, Repr

/-! ## Compilation -/

/-- Why a text is no pattern. -/
inductive Cause where
  | wildcardRun
  | partialComponent
  | invalidRange
  deriving DecidableEq, Repr

/-- A cause and the character at which it shows. -/
structure Fault where
  position : Nat
  cause : Cause
  deriving DecidableEq, Repr

def Cause.message : Cause → String
  | .wildcardRun => "wildcards are either regular `*` or recursive `**`"
  | .partialComponent => "recursive wildcards must form a single path component"
  | .invalidRange => "invalid range pattern"

def Fault.message (fault : Fault) : String :=
  "Pattern syntax error near position " ++ toString fault.position ++ ": " ++ fault.cause.message

/-- The ranges of a class. A `-` between two characters spans a range; elsewhere it is itself. -/
def classRanges : List Char → List Range
  | low :: '-' :: high :: rest => ⟨low, high⟩ :: classRanges rest
  | c :: rest => ⟨c, c⟩ :: classRanges rest
  | [] => []

/-- The characters of a class up to its closing bracket; the first one may be a bracket itself. -/
def classBody : List Char → Option (List Char)
  | [] => none
  | first :: rest =>
    if rest.contains ']' then some (first :: rest.takeWhile (· != ']')) else none

/-- The class behind an opening bracket, and how many characters it takes with its closing one. -/
def class? : List Char → Option (Token × Nat)
  | '!' :: rest => (classBody rest).map fun body => (.without (classRanges body), body.length + 2)
  | rest => (classBody rest).map fun body => (.within (classRanges body), body.length + 1)

/-- The token of a run of stars: one star, or two that are a component by themselves. The token takes
a slash behind it. Given are the characters behind the first star. -/
def stars (rest : List Char) (position : Nat) (before : Option Char) : Except Fault (Token × Nat) :=
  match rest.takeWhile (· == '*') with
  | [] => .ok (.sequence, 0)
  | [_] =>
    if before.all (· == '/') then
      match rest.drop 1 with
      | [] => .ok (.directories, 1)
      | next :: _ =>
        if next == '/' then .ok (.directories, 2) else .error ⟨position + 2, .partialComponent⟩
    else .error ⟨position - 1, .partialComponent⟩
  | _ => .error ⟨position + 2, .wildcardRun⟩

/-- Compiles a text from a position on; the first `skip` characters belong to a token already read. -/
def compileFrom : List Char → (skip position : Nat) → (before : Option Char) →
    Except Fault (List Token)
  | [], _, _, _ => .ok []
  | c :: rest, skip + 1, position, _ => compileFrom rest skip (position + 1) (some c)
  | c :: rest, 0, position, before => do
    let (token, skip) ←
      if c == '?' then pure (.anyCharacter, 0)
      else if c == '*' then stars rest position before
      else if c == '[' then
        match class? rest with
        | some found => pure found
        | none => throw ⟨position, .invalidRange⟩
      else pure (.character c, 0)
    return token :: (← compileFrom rest skip (position + 1) (some c))

/-- Compiles a pattern. -/
def compile (text : String) : Except Fault Pattern := do
  return ⟨← compileFrom text.toList 0 0 none⟩

/-! ## Matching -/

/-- A token that stands for one character accepts it. -/
def Token.accepts : Token → Char → Bool
  | .character own, c => own == c
  | .anyCharacter, _ => true
  | .within ranges, c => ranges.any (·.contains c)
  | .without ranges, c => !ranges.any (·.contains c)
  | .sequence, _ => false
  | .directories, _ => false

/-- A predicate holds of some suffix. -/
def someSuffix (holds : List Char → Bool) : List Char → Bool
  | [] => holds []
  | c :: rest => holds (c :: rest) || someSuffix holds rest

/-- A predicate holds behind some slash or at the end. -/
def someDirectory (holds : List Char → Bool) : List Char → Bool
  | [] => holds []
  | c :: rest => (c == '/' && holds rest) || someDirectory holds rest

/-- Tokens match a whole text. -/
def tokensMatch : List Token → List Char → Bool
  | [], text => text.isEmpty
  | .sequence :: tokens, text => someSuffix (tokensMatch tokens) text
  | .directories :: tokens, text =>
    tokensMatch tokens text || someDirectory (tokensMatch tokens) text
  | token :: tokens, text =>
    match text with
    | [] => false
    | c :: rest => token.accepts c && tokensMatch tokens rest

/-- The pattern matches a whole text. -/
def Pattern.matches (pattern : Pattern) (text : String) : Bool :=
  tokensMatch pattern.tokens text.toList

/-- A text is meant as a pattern if a wildcard occurs in it. -/
def hasWildcard (text : String) : Bool := text.toList.any fun c => c == '*' || c == '?'

end Harvest.Glob
