import Stylebook.Decimal.Numeral
import Stylebook.Decimal.Shortest
import Stylebook.Scalar.Basic

/-!
# Doubles as scalars

Doubles are read from numerals with correct rounding and written with the fewest digits that read
back. Comparisons are those of the floating-point standard, so the value that is not a number is
neither less than nor equal to any other.
-/

set_option autoImplicit false

namespace Stylebook

/-- The remainder of a division of doubles, raised by the divisor where it would be negative. -/
def Decimal.positiveRemainder (x y : Float) : Float :=
  let r := Decimal.remainder x y
  if r < 0.0 then r + y.abs else r

instance : Scalar Float where
  ofNat n := Float.ofNat n
  less x y := decide (x < y)
  remainder := Decimal.positiveRemainder
  wholePart x := x.toUInt32.toNat
  nearestWhole x := x.round.toUInt32.toNat
  read? cs := (Decimal.Numeral.read? cs).map Decimal.Numeral.toFloat
  render := Decimal.render

instance : Trigonometric Float where
  sinCos degrees :=
    let angle := degrees * (3.141592653589793 / 180.0)
    (angle.sin, angle.cos)

end Stylebook
