import Harvest.Text.Span
import Harvest.TypeScript.Character
import Harvest.TypeScript.Token

/-!
# From characters to tokens

`lex` reads one token from the front of a text. Which token a `/`, a backtick or a closing brace
belongs to depends on the grammar, so `regularExpression` and `templateChunk` are separate readers
that the grammar calls when it stands at a place where one may begin.

Every reader walks the list of characters. One that meets an escape looks ahead to decode it and then
walks over the characters it has already used, counting them down in `skip`; so each is a structural
recursion and nothing else bounds it.
-/

namespace Harvest.TypeScript

/-! ## Blanks and comments -/

/-- What a walk over blanks and comments is inside of. -/
inductive Trivia where
  | code
  | lineComment
  | blockComment

/-- Skips blanks, line ends and comments: the text that is left, its place, and whether a line ended.
There is none when a block comment is not closed. -/
def skipTrivia : Trivia → List Char → Nat → Bool → Option (List Char × Nat × Bool)
  | .blockComment, [], _, _ => none
  | .code, [], pos, newline => some ([], pos, newline)
  | .lineComment, [], pos, newline => some ([], pos, newline)
  | .code, '/' :: '/' :: rest, pos, newline => skipTrivia .lineComment rest (pos + 2) newline
  | .code, '/' :: '*' :: rest, pos, newline => skipTrivia .blockComment rest (pos + 2) newline
  | .code, c :: rest, pos, newline =>
    if isLineTerminator c then skipTrivia .code rest (pos + c.utf8Size) true
    else if isBlank c then skipTrivia .code rest (pos + c.utf8Size) newline
    else some (c :: rest, pos, newline)
  | .lineComment, c :: rest, pos, newline =>
    if isLineTerminator c then skipTrivia .code rest (pos + c.utf8Size) true
    else skipTrivia .lineComment rest (pos + c.utf8Size) newline
  | .blockComment, '*' :: '/' :: rest, pos, newline => skipTrivia .code rest (pos + 2) newline
  | .blockComment, c :: rest, pos, newline =>
    skipTrivia .blockComment rest (pos + c.utf8Size) (newline || isLineTerminator c)

/-! ## Escapes -/

/-- The number that hexadecimal digits spell, provided they all are digits. -/
def hexValue? (digits : List Char) : Option Nat :=
  digits.foldl (fun value? c => do return (← value?) * 16 + (← hexDigit? c)) (some 0)

/-- A unicode escape after its backslash: the code point and how many characters spell it. -/
def unicodeEscape : List Char → Option (Nat × Nat)
  | 'u' :: '\x7b' :: rest =>
    let digits := rest.takeWhile fun c => (hexDigit? c).isSome
    match hexValue? digits, rest.drop digits.length with
    | some value, '\x7d' :: _ =>
      if digits.isEmpty || value > 0x10ffff then none else some (value, digits.length + 3)
    | _, _ => none
  | 'u' :: a :: b :: c :: d :: _ => (hexValue? [a, b, c, d]).map fun value => (value, 5)
  | _ => none

/-- A decoded escape: its value, how many characters after the backslash spell it, and whether it is
an octal escape. -/
structure Escape where
  value : StringValue
  length : Nat
  octal : Bool := false

/-- Reads an escape after its backslash. A line end is escaped to nothing; a character that has no
meaning of its own stands for itself. -/
def stringEscape : List Char → Option Escape
  | [] => none
  | 'x' :: rest => do
    let digits := rest.take 2
    let value ← hexValue? digits
    if digits.length == 2 then return { value := [value], length := 3 } else none
  | 'u' :: rest => do
    let (value, length) ← unicodeEscape ('u' :: rest)
    return { value := [value], length }
  | '\r' :: '\n' :: _ => some { value := [], length := 2 }
  | '0' :: rest =>
    match rest with
    | [] => some { value := [0], length := 1 }
    | d :: _ => some { value := [0], length := 1, octal := '0' ≤ d && d ≤ '7' }
  | 'n' :: _ => some { value := [0x0a], length := 1 }
  | 't' :: _ => some { value := [0x09], length := 1 }
  | 'r' :: _ => some { value := [0x0d], length := 1 }
  | 'b' :: _ => some { value := [0x08], length := 1 }
  | 'v' :: _ => some { value := [0x0b], length := 1 }
  | 'f' :: _ => some { value := [0x0c], length := 1 }
  | c :: _ =>
    if isLineTerminator c then some { value := [], length := 1 }
    else some { value := [c.toNat], length := 1, octal := '1' ≤ c && c ≤ '7' }

/-! ## Words -/

/-- A word read so far: its characters backwards, whether one was escaped, the text after it. -/
structure WordScan where
  reversed : List Char
  escaped : Bool
  rest : List Char
  pos : Nat

/-- Reads the characters of an identifier; none when an escape in it is malformed. -/
def scanWord : List Char → (skip pos : Nat) → List Char → Bool → Option WordScan
  | [], _, pos, reversed, escaped => some ⟨reversed, escaped, [], pos⟩
  | c :: rest, skip + 1, pos, reversed, escaped =>
    scanWord rest skip (pos + c.utf8Size) reversed escaped
  | c :: rest, 0, pos, reversed, escaped =>
    if c == '\\' then
      match unicodeEscape rest with
      | none => none
      | some (code, length) =>
        let decoded := Char.ofNat code
        if decoded.toNat == code && continuesName decoded then
          scanWord rest length (pos + 1) (decoded :: reversed) true
        else none
    else if continuesName c then scanWord rest 0 (pos + c.utf8Size) (c :: reversed) escaped
    else some ⟨reversed, escaped, c :: rest, pos⟩

/-- An identifier at the front of a text. A reserved word must be spelled without escapes. -/
def identifier? (text : List Char) (pos : Nat) : Option (String × List Char × Nat) := do
  let scan ← scanWord text 0 pos [] false
  let name := scan.reversed.reverse
  let first ← name.head?
  let spelled := String.ofList name
  if startsName first && !(scan.escaped && isReserved spelled) then
    return (spelled, scan.rest, scan.pos)
  else none

/-! ## Numbers -/

/-- Digits with single underscores between them: how many characters, and the text after them. -/
def digitRun (isDigit : Char → Bool) : List Char → Bool → Nat → Option (Nat × List Char)
  | [], _, count => some (count, [])
  | c :: rest, afterDigit, count =>
    if isDigit c then digitRun isDigit rest true (count + 1)
    else if c == '_' then
      if afterDigit && rest.head?.any isDigit then digitRun isDigit rest false (count + 1) else none
    else some (count, c :: rest)

def isBinaryDigit (c : Char) : Bool := c == '0' || c == '1'

def isOctalDigit (c : Char) : Bool := '0' ≤ c && c ≤ '7'

/-- The exponent of a decimal number, if there is one. -/
def exponentPart (text : List Char) : Option (Nat × List Char) :=
  match text with
  | [] => some (0, [])
  | mark :: rest =>
    if mark == 'e' || mark == 'E' then
      let (signLength, digits) : Nat × List Char := match rest with
        | '+' :: digits => (1, digits)
        | '-' :: digits => (1, digits)
        | _ => (0, rest)
      match digitRun Char.isDigit digits false 0 with
      | some (0, _) => none
      | some (count, after) => some (1 + signLength + count, after)
      | none => none
    else some (0, text)

/-- The fraction and the exponent of a decimal number. -/
def fractionPart (text : List Char) : Option (Nat × List Char) :=
  match text with
  | '.' :: rest => do
    let (count, after) ← digitRun Char.isDigit rest false 0
    let (exponent, after) ← exponentPart after
    return (1 + count + exponent, after)
  | _ => exponentPart text

/-- A number written with a base mark, such as `0x1f`; the digits must not be missing. -/
def markedNumber (isDigit : Char → Bool) (digits : List Char) : Option (Token × Nat × List Char) :=
  match digitRun isDigit digits false 0 with
  | some (count + 1, 'n' :: after) => some (.bigInteger, count + 4, after)
  | some (count + 1, after) => some (.number false, count + 3, after)
  | _ => none

/-- A number written in base ten. -/
def decimalNumber (text : List Char) : Option (Token × Nat × List Char) := do
  let (count, after) ← digitRun Char.isDigit text false 0
  match after with
  | 'n' :: after => if count == 0 then none else some (.bigInteger, count + 1, after)
  | _ =>
    let (fraction, after) ← fractionPart after
    some (.number false, count + fraction, after)

/-- A numeric literal at the front of a text, with its length. -/
def numberLiteral (text : List Char) : Option (Token × Nat × List Char) :=
  match text with
  | '0' :: mark :: rest =>
    if mark == 'x' || mark == 'X' then markedNumber (fun c => (hexDigit? c).isSome) rest
    else if mark == 'o' || mark == 'O' then markedNumber isOctalDigit rest
    else if mark == 'b' || mark == 'B' then markedNumber isBinaryDigit rest
    else if mark == '_' then none
    else if mark.isDigit then do
      let (count, after) ← digitRun Char.isDigit text false 0
      if (text.take count).any (fun c => c == '8' || c == '9') then
        let (fraction, after) ← fractionPart after
        return (.number true, count + fraction, after)
      return (.number true, count, after)
    else decimalNumber text
  | _ => decimalNumber text

/-- A number must not run into a word or another digit. -/
def number? (text : List Char) : Option (Token × Nat × List Char) := do
  let (token, length, rest) ← numberLiteral text
  if rest.head?.any (fun c => startsName c || c.isDigit || c == '\\') then none
  else return (token, length, rest)

/-! ## Strings, templates, regular expressions -/

/-- Reads a string literal up to its closing quote. -/
def scanString (quote : Char) :
    List Char → (skip pos : Nat) → StringValue → Bool → Option (Token × List Char × Nat)
  | [], _, _, _, _ => none
  | c :: rest, skip + 1, pos, value, octal =>
    scanString quote rest skip (pos + c.utf8Size) value octal
  | c :: rest, 0, pos, value, octal =>
    if c == quote then some (.string (joinSurrogates value.reverse) octal, rest, pos + 1)
    else if c == '\n' || c == '\r' then none
    else if c == '\\' then
      match stringEscape rest with
      | none => none
      | some escape =>
        scanString quote rest escape.length (pos + 1) (escape.value.reverse ++ value)
          (octal || escape.octal)
    else scanString quote rest 0 (pos + c.utf8Size) (c.toNat :: value) octal

/-- How a stretch of template text ends, and what comes after it. -/
structure TemplateChunk where
  /-- The template ends here; otherwise a substitution follows. -/
  closed : Bool
  /-- Every escape in the stretch is one that a template without a tag may hold. -/
  wellFormed : Bool
  rest : List Char
  pos : Nat

/-- Reads template text up to the closing backtick or the next substitution. -/
def templateChunk : List Char → (skip pos : Nat) → Bool → Option TemplateChunk
  | [], _, _, _ => none
  | c :: rest, skip + 1, pos, wellFormed => templateChunk rest skip (pos + c.utf8Size) wellFormed
  | '$' :: '\x7b' :: rest, 0, pos, wellFormed => some ⟨false, wellFormed, rest, pos + 2⟩
  | c :: rest, 0, pos, wellFormed =>
    if c == '\x60' then some ⟨true, wellFormed, rest, pos + 1⟩
    else if c == '\\' then
      match stringEscape rest with
      | none => templateChunk rest 1 (pos + 1) false
      | some escape => templateChunk rest escape.length (pos + 1) (wellFormed && !escape.octal)
    else templateChunk rest 0 (pos + c.utf8Size) wellFormed

/-- Reads the body of a regular expression up to its closing slash. -/
def scanPattern : List Char → (inClass escaped : Bool) → Nat → Option (List Char × Nat)
  | [], _, _, _ => none
  | c :: rest, inClass, escaped, pos =>
    if isLineTerminator c then none
    else if escaped then scanPattern rest inClass false (pos + c.utf8Size)
    else if c == '\\' then scanPattern rest inClass true (pos + 1)
    else if c == '[' then scanPattern rest true false (pos + 1)
    else if c == ']' then scanPattern rest false false (pos + 1)
    else if c == '/' && !inClass then some (rest, pos + 1)
    else scanPattern rest inClass false (pos + c.utf8Size)

/-- Flags are single letters out of `dgimsuvy`, none of them twice. -/
def validFlags : List Char → Bool
  | [] => true
  | flag :: rest => "dgimsuvy".toList.contains flag && !rest.contains flag && validFlags rest

/-- A regular expression from its opening slash on: whether its flags are valid, the text after it and
its place. -/
def regularExpression (text : List Char) (pos : Nat) : Option (Bool × List Char × Nat) := do
  let (rest, pos) ← scanPattern (text.drop 1) false false (pos + 1)
  let flags := rest.takeWhile continuesName
  return (validFlags flags, rest.drop flags.length, pos + Text.byteSize flags)

/-! ## Punctuators -/

/-- The longest punctuator at the front of a text, with its length. -/
def punctuator? : List Char → Option (Punctuator × Nat)
  | '\x7b' :: _ => some (.braceLeft, 1)
  | '\x7d' :: _ => some (.braceRight, 1)
  | '(' :: _ => some (.parenLeft, 1)
  | ')' :: _ => some (.parenRight, 1)
  | '[' :: _ => some (.bracketLeft, 1)
  | ']' :: _ => some (.bracketRight, 1)
  | ';' :: _ => some (.semicolon, 1)
  | ',' :: _ => some (.comma, 1)
  | '.' :: '.' :: '.' :: _ => some (.ellipsis, 3)
  | '.' :: _ => some (.dot, 1)
  | '?' :: '?' :: '=' :: _ => some (.compound, 3)
  | '?' :: '?' :: _ => some (.coalesce, 2)
  | '?' :: '.' :: rest => if rest.head?.any Char.isDigit then some (.question, 1) else some (.questionDot, 2)
  | '?' :: _ => some (.question, 1)
  | ':' :: _ => some (.colon, 1)
  | '@' :: _ => some (.at, 1)
  | '<' :: '<' :: '=' :: _ => some (.compound, 3)
  | '<' :: '<' :: _ => some (.shiftLeft, 2)
  | '<' :: '=' :: _ => some (.lessEqual, 2)
  | '<' :: '!' :: '-' :: '-' :: _ => none
  | '<' :: _ => some (.less, 1)
  | '>' :: _ => some (.greater, 1)
  | '=' :: '=' :: '=' :: _ => some (.strictEqual, 3)
  | '=' :: '=' :: _ => some (.equal, 2)
  | '=' :: '>' :: _ => some (.arrow, 2)
  | '=' :: _ => some (.assign, 1)
  | '!' :: '=' :: '=' :: _ => some (.strictNotEqual, 3)
  | '!' :: '=' :: _ => some (.notEqual, 2)
  | '!' :: _ => some (.bang, 1)
  | '+' :: '+' :: _ => some (.increment, 2)
  | '+' :: '=' :: _ => some (.compound, 2)
  | '+' :: _ => some (.plus, 1)
  | '-' :: '-' :: _ => some (.decrement, 2)
  | '-' :: '=' :: _ => some (.compound, 2)
  | '-' :: _ => some (.minus, 1)
  | '*' :: '*' :: '=' :: _ => some (.compound, 3)
  | '*' :: '*' :: _ => some (.power, 2)
  | '*' :: '=' :: _ => some (.compound, 2)
  | '*' :: _ => some (.star, 1)
  | '/' :: '=' :: _ => some (.slashAssign, 2)
  | '/' :: _ => some (.slash, 1)
  | '%' :: '=' :: _ => some (.compound, 2)
  | '%' :: _ => some (.percent, 1)
  | '&' :: '&' :: '=' :: _ => some (.compound, 3)
  | '&' :: '&' :: _ => some (.logicalAnd, 2)
  | '&' :: '=' :: _ => some (.compound, 2)
  | '&' :: _ => some (.and, 1)
  | '|' :: '|' :: '=' :: _ => some (.compound, 3)
  | '|' :: '|' :: _ => some (.logicalOr, 2)
  | '|' :: '=' :: _ => some (.compound, 2)
  | '|' :: _ => some (.or, 1)
  | '^' :: '=' :: _ => some (.compound, 2)
  | '^' :: _ => some (.xor, 1)
  | '~' :: _ => some (.tilde, 1)
  | _ => none

/-! ## One token -/

/-- A closing comment mark at the start of a line is refused in modules. -/
def closesMarkupComment (afterNewline : Bool) : List Char → Bool
  | '-' :: '-' :: '>' :: _ => afterNewline
  | _ => false

/-- The token at the front of a text without blanks, the text after it and its place. -/
def lexHere (text : List Char) (pos : Nat) (afterNewline : Bool) : Option (Token × List Char × Nat) :=
  match text with
  | [] => some (.endOfFile, [], pos)
  | c :: rest =>
    if c == '\x22' || c == '\x27' then scanString c rest 0 (pos + 1) [] false
    else if c == '\x60' then some (.backtick, rest, pos + 1)
    else if c.isDigit || (c == '.' && rest.head?.any Char.isDigit) then
      (number? text).map fun (token, length, rest) => (token, rest, pos + length)
    else if startsName c || c == '\\' then
      (identifier? text pos).map fun (name, rest, pos) => (.word name, rest, pos)
    else if c == '#' then
      (identifier? rest (pos + 1)).map fun (name, rest, pos) => (.privateName name, rest, pos)
    else if closesMarkupComment afterNewline text then none
    else (punctuator? text).map fun (p, length) => (.punctuator p, text.drop length, pos + length)

/-- Reads the next token, after any blanks and comments. An invalid token takes nothing of the text. -/
def lex (text : List Char) (pos : Nat) : Lexeme :=
  match skipTrivia .code text pos false with
  | none => ⟨.invalid, pos, pos, false, text, text⟩
  | some (here, start, afterNewline) =>
    match lexHere here start afterNewline with
    | none => ⟨.invalid, start, start, afterNewline, here, here⟩
    | some (token, rest, stop) => ⟨token, start, stop, afterNewline, here, rest⟩

end Harvest.TypeScript
