import Harvest.Text.Span

/-!
# Reading JSON

A reader takes what it expects from the front of a text. What it meets may be of another type, the text
may end too early, or it may be no JSON at all; whichever shows first in reading order counts. Values
that nobody asks for are skipped, and need only be well formed.
-/

namespace Harvest.Json

/-- Why a text cannot be read. -/
inductive Fault where
  /-- Well formed so far, but not what is expected. -/
  | mismatch
  /-- The text ends too early. -/
  | truncated
  /-- Not JSON. -/
  | malformed
  deriving DecidableEq, Repr

def Fault.message : Fault → String
  | .mismatch => "<json data>"
  | .truncated => "<json eof>"
  | .malformed => "<json syntax>"

/-- Reads a value from the front of a text. -/
abbrev Reader := StateT (List Char) (Except Fault)

def isBlank (c : Char) : Bool := c == ' ' || c == '\n' || c == '\t' || c == '\r'

/-- The next character that is not blank, which stays. -/
def peek : Reader (Option Char) := do
  let text := (← get).dropWhile isBlank
  set text
  return text.head?

/-- Takes one character. -/
def drop : Reader Unit := modify List.tail

/-! ## Strings -/

def hexDigit? (c : Char) : Option Nat :=
  if '0' ≤ c && c ≤ '9' then some (c.toNat - '0'.toNat)
  else if 'a' ≤ c && c ≤ 'f' then some (c.toNat - 'a'.toNat + 10)
  else if 'A' ≤ c && c ≤ 'F' then some (c.toNat - 'A'.toNat + 10)
  else none

/-- The number that four hexadecimal digits spell. -/
def fourDigits (text : List Char) : Except Fault Nat :=
  match text with
  | a :: b :: c :: d :: _ =>
    match hexDigit? a, hexDigit? b, hexDigit? c, hexDigit? d with
    | some a, some b, some c, some d => .ok (((a * 16 + b) * 16 + c) * 16 + d)
    | _, _, _, _ => .error .malformed
  | _ => .error (if Text.byteSize text < 4 then .truncated else .malformed)

/-- The low half of a surrogate pair, with its backslash. -/
def lowSurrogate (text : List Char) : Except Fault Nat :=
  match text with
  | [] => .error .truncated
  | ['\\'] => .error .truncated
  | '\\' :: 'u' :: rest => do
    let low ← fourDigits rest
    if 0xdc00 ≤ low && low ≤ 0xdfff then return low else throw .malformed
  | _ => .error .malformed

/-- The character that a single letter behind a backslash stands for. -/
def simpleEscape? (c : Char) : Option Char :=
  if c == '\x22' || c == '\\' || c == '/' then some c
  else if c == 'b' then some '\x08'
  else if c == 'f' then some '\x0c'
  else if c == 'n' then some '\n'
  else if c == 'r' then some '\r'
  else if c == 't' then some '\t'
  else none

/-- The character that an escape spells, and how many characters behind the backslash it takes. -/
def escape (text : List Char) : Except Fault (Char × Nat) :=
  match text with
  | [] => .error .truncated
  | 'u' :: rest => do
    let unit ← fourDigits rest
    if 0xdc00 ≤ unit && unit ≤ 0xdfff then throw .malformed
    else if 0xd800 ≤ unit && unit ≤ 0xdbff then
      let low ← lowSurrogate (rest.drop 4)
      return (Char.ofNat (0x10000 + (unit - 0xd800) * 0x400 + (low - 0xdc00)), 11)
    else return (Char.ofNat unit, 5)
  | c :: _ =>
    match simpleEscape? c with
    | some meant => .ok (meant, 1)
    | none => .error .malformed

/-- Reads a string behind its opening quotation mark. The first `skip` characters belong to an escape
already read. -/
def scanString : List Char → (skip : Nat) → Except Fault (List Char × List Char)
  | [], _ => .error .truncated
  | _ :: rest, skip + 1 => scanString rest skip
  | c :: rest, 0 =>
    if c == '\x22' then .ok ([], rest)
    else if c.toNat < 0x20 then .error .malformed
    else if c == '\\' then do
      let (meant, length) ← escape rest
      let (value, after) ← scanString rest length
      return (meant :: value, after)
    else do
      let (value, after) ← scanString rest 0
      return (c :: value, after)

/-- How many characters behind the backslash an escape takes in a string that nobody reads. -/
def escapeLength (text : List Char) : Except Fault Nat :=
  match text with
  | [] => .error .truncated
  | 'u' :: rest => do
    let _ ← fourDigits rest
    return 5
  | c :: _ => if (simpleEscape? c).isSome then .ok 1 else .error .malformed

/-- Skips a string behind its opening quotation mark. -/
def skipString : List Char → (skip : Nat) → Except Fault (List Char)
  | [], _ => .error .truncated
  | _ :: rest, skip + 1 => skipString rest skip
  | c :: rest, 0 =>
    if c == '\x22' then .ok rest
    else if c.toNat < 0x20 then .error .malformed
    else if c == '\\' then do
      skipString rest (← escapeLength rest)
    else skipString rest 0

/-! ## Numbers -/

def digitValue (c : Char) : Nat := c.toNat - '0'.toNat

/-- The number that digits spell. -/
def ofDigits (digits : List Char) : Nat := digits.foldl (fun n c => 10 * n + digitValue c) 0

/-- From here on no number is a double. -/
def rangeLimit : Nat := Nat.pow 2 1024 - Nat.pow 2 970

/-- Digits scaled by a power of ten are too large for a double. -/
def isOutOfRange (digits : List Char) (scale : Int) : Bool :=
  let value := ofDigits digits
  if value == 0 then false
  else if scale > 400 then true
  else if scale ≥ 0 then value * Nat.pow 10 scale.toNat ≥ rangeLimit
  else if (-scale).toNat > digits.length then false
  else value ≥ rangeLimit * Nat.pow 10 (-scale).toNat

/-- What is wrong with a number where none is expected: it may be no number after all, or too large
for one. Given are its digits up to its exponent, and the text of the exponent. -/
def exponentFault (digits : List Char) (places : Nat) (text : List Char) : Fault :=
  match text with
  | mark :: rest =>
    if mark == 'e' || mark == 'E' then
      let negative := rest.head? == some '-'
      let body := if negative || rest.head? == some '+' then rest.tail else rest
      match body with
      | [] => .truncated
      | first :: _ =>
        if first.isDigit then
          let exponent := Int.ofNat (ofDigits (body.takeWhile Char.isDigit))
          let scale := (if negative then -exponent else exponent) - Int.ofNat places
          if isOutOfRange digits scale then .malformed else .mismatch
        else .malformed
    else if isOutOfRange digits (-Int.ofNat places) then .malformed else .mismatch
  | [] => if isOutOfRange digits (-Int.ofNat places) then .malformed else .mismatch

/-- What is wrong with a number behind its whole part. -/
def fractionFault (whole text : List Char) : Fault :=
  match text with
  | '.' :: rest =>
    let places := rest.takeWhile Char.isDigit
    let after := rest.drop places.length
    if places.isEmpty then (if after.isEmpty then .truncated else .malformed)
    else exponentFault (whole ++ places) places.length after
  | text => exponentFault whole 0 text

/-- What is wrong with a number behind its sign. -/
def numberFault (text : List Char) : Fault :=
  match text with
  | [] => .truncated
  | '0' :: rest => if rest.head?.any Char.isDigit then .malformed else fractionFault ['0'] rest
  | c :: _ =>
    if c.isDigit then
      let whole := text.takeWhile Char.isDigit
      fractionFault whole (text.drop whole.length)
    else .malformed

/-- Skips an exponent, if there is one. -/
def skipExponent (text : List Char) : Except Fault (List Char) :=
  match text with
  | mark :: rest =>
    if mark == 'e' || mark == 'E' then
      let body := if rest.head? == some '-' || rest.head? == some '+' then rest.tail else rest
      if body.head?.any Char.isDigit then .ok (body.dropWhile Char.isDigit) else .error .malformed
    else .ok text
  | [] => .ok text

/-- Skips the places behind the point, if there are any, and the exponent. -/
def skipFraction (text : List Char) : Except Fault (List Char) :=
  match text with
  | '.' :: rest =>
    if rest.head?.any Char.isDigit then skipExponent (rest.dropWhile Char.isDigit)
    else .error .malformed
  | text => skipExponent text

/-- Skips a number behind its sign. -/
def skipNumber (text : List Char) : Except Fault (List Char) :=
  match text with
  | '0' :: rest => if rest.head?.any Char.isDigit then .error .malformed else skipFraction rest
  | c :: _ => if c.isDigit then skipFraction (text.dropWhile Char.isDigit) else .error .malformed
  | [] => .error .malformed

/-! ## Words -/

/-- Takes the letters of a word. -/
def skipWord : List Char → List Char → Except Fault (List Char)
  | [], text => .ok text
  | _ :: _, [] => .error .truncated
  | letter :: letters, c :: rest =>
    if letter == c then skipWord letters rest else .error .malformed

/-- The words that are values, by their first letter. -/
def wordOf? (first : Char) : Option (List Char) :=
  if first == 'n' then some "null".toList
  else if first == 't' then some "true".toList
  else if first == 'f' then some "false".toList
  else none

/-! ## Values of another type -/

/-- The fault of an outcome that is no fault: the value is well formed, but not what is expected. -/
def faultOf {α : Type} : Except Fault α → Fault
  | .ok _ => .mismatch
  | .error fault => fault

/-- The fault of a value at the front of a text where none of its type is expected. -/
def mismatchFault (text : List Char) : Fault :=
  match text with
  | [] => .malformed
  | c :: rest =>
    match wordOf? c with
    | some word => faultOf (skipWord word text)
    | none =>
      if c == '-' then numberFault rest
      else if c.isDigit then numberFault text
      else if c == '\x22' then faultOf (scanString rest 0)
      else if c == '[' || c == '\x7b' then .mismatch
      else .malformed

/-- Refuses a value that is not of the expected type. -/
def mismatch {α : Type} : Reader α := do throw (mismatchFault (← get))

/-! ## Skipping -/

/-- What a skipped value lies in. -/
inductive Frame where
  | list
  | object
  deriving DecidableEq, Repr

def Frame.close : Frame → Char
  | .list => ']'
  | .object => '\x7d'

/-- Where skipping stands: before a value, behind an opening bracket, before an item, or behind a
value. -/
inductive Position where
  | value
  | opened
  | item
  | behind
  deriving DecidableEq, Repr

/-- Skips the key of an object and its colon. -/
def skipKey (text : List Char) : Except Fault (List Char) :=
  match text.dropWhile isBlank with
  | [] => .error .truncated
  | '\x22' :: rest => do
    let after ← skipString rest 0
    match after.dropWhile isBlank with
    | [] => throw .truncated
    | ':' :: rest => return rest
    | _ => throw .malformed
  | _ => .error .malformed

/-- Skips the rest of a value from a position on, in at most `bound` steps. -/
def skipFrom : (bound : Nat) → Position → List Frame → List Char → Except Fault (List Char)
  | 0, _, _, _ => .error .malformed
  | _ + 1, .behind, [], text => .ok text
  | _ + 1, .opened, [], text => .ok text
  | _ + 1, .item, [], text => .ok text
  | bound + 1, .value, frames, text =>
    match text.dropWhile isBlank with
    | [] => .error .truncated
    | c :: rest =>
      match wordOf? c with
      | some word => do skipFrom bound .behind frames (← skipWord word (c :: rest))
      | none =>
        if c == '-' then do skipFrom bound .behind frames (← skipNumber rest)
        else if c.isDigit then do skipFrom bound .behind frames (← skipNumber (c :: rest))
        else if c == '\x22' then do skipFrom bound .behind frames (← skipString rest 0)
        else if c == '[' then skipFrom bound .opened (.list :: frames) rest
        else if c == '\x7b' then skipFrom bound .opened (.object :: frames) rest
        else .error .malformed
  | bound + 1, .opened, frame :: frames, text =>
    match text.dropWhile isBlank with
    | [] => .error .truncated
    | c :: rest =>
      if c == frame.close then skipFrom bound .behind frames rest
      else skipFrom bound .item (frame :: frames) (c :: rest)
  | bound + 1, .item, .list :: frames, text => skipFrom bound .value (.list :: frames) text
  | bound + 1, .item, .object :: frames, text => do
    skipFrom bound .value (.object :: frames) (← skipKey text)
  | bound + 1, .behind, frame :: frames, text =>
    match text.dropWhile isBlank with
    | [] => .error .truncated
    | c :: rest =>
      if c == ',' then skipFrom bound .item (frame :: frames) rest
      else if c == frame.close then skipFrom bound .behind frames rest
      else .error .malformed

/-- Skips a value. Of every three steps one takes a character, or the value is complete. -/
def skipValue : Reader Unit := do
  let text ← get
  match skipFrom (3 * text.length + 3) .value [] text with
  | .ok rest => set rest
  | .error fault => throw fault

/-! ## Expected values -/

/-- A string behind its opening quotation mark. -/
def stringBody : Reader String := do
  match scanString (← get) 0 with
  | .ok (value, rest) =>
    set rest
    return String.ofList value
  | .error fault => throw fault

/-- A string. -/
def string : Reader String := do
  match ← peek with
  | none => throw .truncated
  | some c =>
    if c == '\x22' then
      drop
      stringBody
    else mismatch

/-- Goes on to the next element of a list, if there is one; the first has no comma before it. -/
def nextElement (isFirst : Bool) : Reader Bool := do
  match ← peek with
  | none => throw .truncated
  | some c =>
    if c == ']' then return false
    if isFirst then return true
    if c != ',' then throw .malformed
    drop
    match ← peek with
    | none => throw .truncated
    | some c => if c == ']' then throw .malformed else return true

/-- Takes the closing bracket of a list. -/
def closeList : Reader Unit := do
  match ← peek with
  | none => throw .truncated
  | some c => if c == ']' then drop else throw .malformed

/-- The elements of a list, at most `bound` of them. -/
def elements {α : Type} (element : Reader α) : (bound : Nat) → (isFirst : Bool) → Reader (List α)
  | 0, _ => throw .malformed
  | bound + 1, isFirst => do
    if !(← nextElement isFirst) then return []
    let first ← element
    return first :: (← elements element bound false)

/-- A list. -/
def list {α : Type} (element : Reader α) : Reader (List α) := do
  match ← peek with
  | none => throw .truncated
  | some c =>
    if c == '[' then
      drop
      let values ← elements element ((← get).length + 1) true
      closeList
      return values
    else mismatch

/-- The next key of an object, if there is one; the first has no comma before it. -/
def nextKey? (isFirst : Bool) : Reader (Option String) := do
  match ← peek with
  | none => throw .truncated
  | some c =>
    if c == '\x7d' then return none
    if !isFirst then
      if c != ',' then throw .malformed
      drop
    match ← peek with
    | none => throw .truncated
    | some c =>
      if c != '\x22' then throw .malformed
      drop
      return some (← stringBody)

/-- The colon behind a key. -/
def colon : Reader Unit := do
  match ← peek with
  | none => throw .truncated
  | some c => if c == ':' then drop else throw .malformed

/-- Nothing but blanks may follow a value. -/
def finish : Reader Unit := do
  if (← peek).isSome then throw .malformed

end Harvest.Json
