/-!
# Styled text

On a terminal that shows colours, a stretch of text is set in a style by a sequence in front of it and
reset by one behind it.
-/

namespace Harvest.Text

inductive Style where
  | green
  | red
  | cyan
  | dimmed
  deriving DecidableEq, Repr

/-- The sequence that starts a style. -/
def Style.start : Style → List Char
  | .green => "\x1b[32m".toList
  | .red => "\x1b[31m".toList
  | .cyan => "\x1b[36m".toList
  | .dimmed => "\x1b[2m".toList

/-- The sequence that ends any style. -/
def reset : List Char := "\x1b[0m".toList

/-- Starts a style again behind every reset in a text. The first `skip` characters belong to a reset
already seen. -/
def resume (start : List Char) : List Char → (skip : Nat) → List Char
  | [], _ => []
  | c :: rest, 0 =>
    if reset.isPrefixOf (c :: rest) then c :: resume start rest 3 else c :: resume start rest 0
  | c :: rest, 1 => c :: (start ++ resume start rest 0)
  | c :: rest, skip + 2 => c :: resume start rest (skip + 1)

/-- Sets a text in a style, if colours are shown. -/
def Style.apply (style : Style) (colored : Bool) (text : String) : String :=
  if colored then
    String.ofList (style.start ++ resume style.start text.toList 0 ++ reset)
  else text

end Harvest.Text
