/-!
# White space

The characters that Unicode counts as white space.
-/

namespace Harvest.Text

/-- The character is white space. -/
def isWhite (c : Char) : Bool :=
  let n := c.toNat
  (0x9 ≤ n && n ≤ 0xd) || n == 0x20 || n == 0x85 || n == 0xa0 || n == 0x1680 ||
    (0x2000 ≤ n && n ≤ 0x200a) || n == 0x2028 || n == 0x2029 || n == 0x202f || n == 0x205f || n == 0x3000

/-- There is nothing but white space in a text. -/
def isBlank (text : String) : Bool := text.toList.all isWhite

end Harvest.Text
