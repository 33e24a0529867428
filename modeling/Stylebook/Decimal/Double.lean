/-!
# Doubles as exact numbers

A finite double is a sign, a whole number and a power of two. `decode` reads these off the bits,
`remainder` is the exact remainder of a division, computed on whole numbers.
-/

set_option autoImplicit false

namespace Stylebook.Decimal

/-- What the bits of a double say: a finite one is `mantissa * 2 ^ exponent` up to its sign. -/
inductive Decoded where
  | notNumber
  | infinite (negative : Bool)
  | finite (negative : Bool) (mantissa : Nat) (exponent : Int)
  deriving Repr, DecidableEq

def leastExponent : Int := -1074

/-- Number of mantissas below the first normal one. -/
def hiddenUnit : Nat := Nat.pow 2 52

/-- The parts of a double, given its 64 bits as a number. -/
def decodeBits (bits : Nat) : Decoded :=
  let negative := bits / Nat.pow 2 63 % 2 == 1
  let exponent : Nat := bits / hiddenUnit % 2048
  let fraction : Nat := bits % hiddenUnit
  if exponent = 2047 then if fraction = 0 then .infinite negative else .notNumber
  else if exponent = 0 then .finite negative fraction leastExponent
  else .finite negative (fraction + hiddenUnit) (exponent - 1075)

/-- The parts of a double. -/
def decode (x : Float) : Decoded :=
  decodeBits x.toBits.toNat

/-- The double `mantissa * 2 ^ exponent`, for a mantissa and exponent that a double can hold. -/
def encode (negative : Bool) (mantissa : Nat) (exponent : Int) : Float :=
  let size := Float.scaleB (Float.ofNat mantissa) exponent
  if negative then -size else size

/-- The exact remainder of `x` by `y`, with the sign of `x`; not a number where it has no meaning. -/
def remainder (x y : Float) : Float :=
  match decode x, decode y with
  | .finite negative m e, .finite _ n f =>
    if n = 0 then 0.0 / 0.0
    else if m = 0 then x
    else
      let low := min e f
      encode negative ((m * Nat.pow 2 (e - low).toNat) % (n * Nat.pow 2 (f - low).toNat)) low
  | .finite .., .infinite _ => x
  | _, _ => 0.0 / 0.0

end Stylebook.Decimal
