/-!
# Blank Characters

The characters of the Unicode property White_Space, and what is left of a text
once they are taken off its ends.

## Main definitions

* `Text.isBlank`: Whether a character is white space.
* `Text.trim`: A text without the blank characters at its ends.
* `Text.isAllBlank`: Whether a text has nothing else.
-/

namespace Scriptlet

namespace Text

/-- The property White_Space. -/
def isBlank (c : Char) : Bool :=
  let n := c.toNat
  (0x9 ≤ n && n ≤ 0xd) || n == 0x20 || n == 0x85 || n == 0xa0 || n == 0x1680 ||
    (0x2000 ≤ n && n ≤ 0x200a) || n == 0x2028 || n == 0x2029 || n == 0x202f || n == 0x205f ||
    n == 0x3000

/-- Takes the blank characters off both ends. -/
def trim (cs : List Char) : List Char :=
  ((cs.dropWhile isBlank).reverse.dropWhile isBlank).reverse

/-- Whether a text consists of blank characters only. -/
def isAllBlank (cs : List Char) : Bool :=
  cs.all isBlank

end Text

end Scriptlet
