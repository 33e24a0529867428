/-!
# Blank characters

A character is *blank* when it has the Unicode property `White_Space`. Trimming removes a run of
characters of some class from both ends of a text; `trim` is trimming of blanks.
-/

set_option autoImplicit false

namespace Stylebook.Text

/-- The Unicode property `White_Space`. -/
def isBlank (c : Char) : Bool :=
  let n := c.toNat
  (9 ≤ n && n ≤ 13) || n == 0x20 || n == 0x85 || n == 0xA0 || n == 0x1680
    || (0x2000 ≤ n && n ≤ 0x200A) || n == 0x2028 || n == 0x2029 || n == 0x202F || n == 0x205F
    || n == 0x3000

/-- The text without the characters of class `p` at its end. -/
def trimEndWhile (p : Char → Bool) (cs : List Char) : List Char :=
  (cs.reverse.dropWhile p).reverse

/-- The text without the characters of class `p` at its two ends. -/
def trimWhile (p : Char → Bool) (cs : List Char) : List Char :=
  trimEndWhile p (cs.dropWhile p)

/-- The text without the blanks at its two ends. -/
def trim (cs : List Char) : List Char :=
  trimWhile isBlank cs

end Stylebook.Text
