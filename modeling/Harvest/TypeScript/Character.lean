import Harvest.Text.Letter

/-!
# Characters of source text

The lexical classes of ECMAScript: line terminators, blanks, and the characters that start or
continue an identifier.
-/

namespace Harvest.TypeScript

/-- Line feed, carriage return, line separator and paragraph separator end a line. -/
def isLineTerminator (c : Char) : Bool :=
  c == '\n' || c == '\r' || c.toNat == 0x2028 || c.toNat == 0x2029

/-- White space within a line: tab, vertical tab, form feed, the byte order mark and the space
separators of Unicode. -/
def isBlank (c : Char) : Bool :=
  c == ' ' || c == '\t' || c.toNat == 0x0b || c.toNat == 0x0c || c.toNat == 0xa0 ||
  c.toNat == 0xfeff || c.toNat == 0x1680 || (0x2000 ≤ c.toNat && c.toNat ≤ 0x200a) ||
  c.toNat == 0x202f || c.toNat == 0x205f || c.toNat == 0x3000

/-- The characters an identifier may start with. -/
def startsName (c : Char) : Bool :=
  if c.toNat < 128 then c.isAlpha || c == '$' || c == '_'
  else Text.insideBoundaries Text.startBoundaries c.toNat

/-- The characters an identifier may go on with. -/
def continuesName (c : Char) : Bool :=
  if c.toNat < 128 then c.isAlphanum || c == '$' || c == '_'
  else startsName c || Text.insideBoundaries Text.continueBoundaries c.toNat

/-- The value of a hexadecimal digit. -/
def hexDigit? (c : Char) : Option Nat :=
  if '0' ≤ c && c ≤ '9' then some (c.toNat - 48)
  else if 'a' ≤ c && c ≤ 'f' then some (c.toNat - 87)
  else if 'A' ≤ c && c ≤ 'F' then some (c.toNat - 55)
  else none

end Harvest.TypeScript
