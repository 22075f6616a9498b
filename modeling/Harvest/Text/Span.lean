/-!
# Spans of a text

A text is a list of characters, and a place in it is counted in the bytes of its UTF-8 encoding. A
`Span` is a pair of places. Cutting a span out of a text, and counting the UTF-16 code units before
it, are the two ways in which the rest of the library reads a source file.

Both are partial: a text can only be divided between two of its characters or at one of its ends.
-/

namespace Harvest.Text

/-- A stretch of a text, from one place to another, both counted in bytes. -/
structure Span where
  start : Nat
  stop : Nat
  deriving DecidableEq, Repr

/-- The number of bytes of a text in UTF-8. -/
def byteSize : List Char → Nat
  | [] => 0
  | c :: rest => c.utf8Size + byteSize rest

/-- Divides a text behind its first `n` bytes, if these are whole characters of it. -/
def divide? : List Char → Nat → Option (List Char × List Char)
  | [], n => if n = 0 then some ([], []) else none
  | c :: rest, n =>
    if n = 0 then some ([], c :: rest)
    else if n < c.utf8Size then none
    else (divide? rest (n - c.utf8Size)).map fun parts => (c :: parts.1, parts.2)

/-- The part of a text that a span covers, if the span has its ends in their order and covers whole
characters. -/
def slice? (text : List Char) (span : Span) : Option (List Char) :=
  if span.start ≤ span.stop then
    (divide? text span.start).bind fun parts =>
      (divide? parts.2 (span.stop - span.start)).map Prod.fst
  else none

/-- A character outside the basic plane takes two UTF-16 code units, every other one. -/
def codeUnits (c : Char) : Nat :=
  if c.toNat < 0x10000 then 1 else 2

/-- The number of UTF-16 code units of a text. -/
def unitCount : List Char → Nat
  | [] => 0
  | c :: rest => codeUnits c + unitCount rest

/-- A byte order mark in front of a text does not belong to it. -/
def dropByteOrderMark : List Char → List Char
  | c :: rest => if c.toNat == 0xfeff then rest else c :: rest
  | [] => []

end Harvest.Text
