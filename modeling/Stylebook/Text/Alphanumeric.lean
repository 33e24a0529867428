import Stylebook.Text.AlphanumericRanges

/-!
# Letters and digits of every script

`isAlphanumeric` holds of the characters that are alphabetic or have a numeric value in Unicode.
ASCII characters are decided by arithmetic, the others by a table of ranges.
-/

set_option autoImplicit false

namespace Stylebook.Text

/-- Whether `n` lies in one of the closed ranges. -/
def inRanges (ranges : List (Nat × Nat)) (n : Nat) : Bool :=
  ranges.any fun r => r.1 ≤ n && n ≤ r.2

/-- Alphabetic or numeric in Unicode. -/
def isAlphanumeric (c : Char) : Bool :=
  if c.toNat < 128 then c.isAlphanum else inRanges alphanumericRanges c.toNat

end Stylebook.Text
