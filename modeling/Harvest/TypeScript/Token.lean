/-!
# Tokens

The alphabet of the grammar. Keywords are not a class of their own: they are words, and the grammar
asks for a word by its spelling. A `>` is always a token by itself; the operators that start with it
are put together where an operator may stand, so that nested type argument lists close one by one.
-/

namespace Harvest.TypeScript

/-- Punctuators. The compound assignment operators share `compound`, except for `/=`, which may also
open a regular expression. -/
inductive Punctuator where
  | braceLeft | braceRight | parenLeft | parenRight | bracketLeft | bracketRight
  | semicolon | comma | dot | ellipsis | questionDot | question | colon | arrow | at
  | less | lessEqual | shiftLeft | greater
  | assign | compound | slashAssign
  | equal | strictEqual | notEqual | strictNotEqual
  | plus | minus | star | slash | percent | power | increment | decrement
  | and | or | xor | bang | tilde | logicalAnd | logicalOr | coalesce
  deriving DecidableEq, Repr

/-- The value of a string literal: code points, among them lone surrogates if its escapes spell some. -/
abbrev StringValue := List Nat

inductive Token where
  /-- An identifier or a keyword, with its escapes decoded. -/
  | word (name : String)
  | privateName (name : String)
  /-- A number; `legacy` when it is spelled with a superfluous leading zero. -/
  | number (legacy : Bool)
  | bigInteger
  /-- A string literal; `octal` when an octal escape occurs in it. -/
  | string (value : StringValue) (octal : Bool)
  | backtick
  | punctuator (p : Punctuator)
  | endOfFile
  /-- No token starts here. -/
  | invalid
  deriving DecidableEq, Repr

/-- A token in its place: where it starts and stops, whether a line ends between it and the token
before, the text from its first character on and the text after it. -/
structure Lexeme where
  token : Token
  start : Nat
  stop : Nat
  afterNewline : Bool
  here : List Char
  rest : List Char

/-- Words that can never be identifiers. -/
def keywords : List String := [
  "break", "case", "catch", "class", "const", "continue", "debugger", "default", "delete", "do",
  "else", "export", "extends", "false", "finally", "for", "function", "if", "import", "in",
  "instanceof", "new", "null", "return", "super", "switch", "this", "throw", "true", "try",
  "typeof", "var", "void", "while", "with"]

/-- Words that module code keeps from being identifiers, though they read like ones. -/
def strictWords : List String := [
  "enum", "implements", "interface", "let", "package", "private", "protected", "public", "static",
  "yield"]

/-- Module code reserves keywords, the strict words and `await`. -/
def isReserved (name : String) : Bool :=
  keywords.contains name || strictWords.contains name || name == "await"

/-- Names that may be read but neither bound nor assigned. -/
def isRestricted (name : String) : Bool :=
  name == "eval" || name == "arguments"

/-- The token is an identifier or a keyword. -/
def Lexeme.isWord (lexeme : Lexeme) : Bool :=
  match lexeme.token with
  | .word _ => true
  | _ => false

/-- The token is a word that may be an identifier. -/
def Lexeme.isName (lexeme : Lexeme) : Bool :=
  match lexeme.token with
  | .word name => !isReserved name
  | _ => false

/-- Joins each high surrogate with the low surrogate after it. -/
def joinSurrogates : StringValue → StringValue
  | [] => []
  | [unit] => [unit]
  | high :: low :: rest =>
    if 0xd800 ≤ high && high ≤ 0xdbff && 0xdc00 ≤ low && low ≤ 0xdfff then
      (0x10000 + (high - 0xd800) * 0x400 + (low - 0xdc00)) :: joinSurrogates rest
    else high :: joinSurrogates (low :: rest)

/-- A string value as text, with U+FFFD for each lone surrogate. -/
def StringValue.toText (value : StringValue) : String :=
  String.ofList (value.map fun code => if Nat.isValidChar code then Char.ofNat code else Char.ofNat 0xfffd)

/-- A string value as text, provided it has no lone surrogate. -/
def StringValue.toText? (value : StringValue) : Option String :=
  if value.all (fun code => decide (Nat.isValidChar code)) then some value.toText else none

end Harvest.TypeScript
