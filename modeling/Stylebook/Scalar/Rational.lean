import Stylebook.Decimal.Numeral
import Stylebook.Scalar.Basic

/-!
# Rationals as scalars

Exact arithmetic. A numeral is read as the rational it denotes; there is no infinite rational and
none that is not a number, so the words for these are not read. A rational is written as a whole
number or as a quotient of two.
-/

set_option autoImplicit false

namespace Stylebook

instance : Scalar Rat where
  ofNat n := (n : Rat)
  less x y := decide (x < y)
  remainder x y := x - y * ((x / y).floor : Int)
  wholePart x := x.floor.toNat
  nearestWhole x := (x + 1 / 2).floor.toNat
  read? cs := (Decimal.Numeral.read? cs).bind Decimal.Numeral.toRat?
  render x := if x.den = 1 then toString x.num else toString x.num ++ "/" ++ toString x.den

end Stylebook
