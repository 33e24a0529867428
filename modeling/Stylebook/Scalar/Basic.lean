/-!
# Scalars

The numbers that values are made of. Everything numeric in this library is written over a type with a
`Scalar` instance, so that the same definitions run on doubles and can be reasoned about over the
rationals (`Stylebook.Scalar.Double` and `Stylebook.Scalar.Rational`).

A scalar need not be comparable with itself: the operations `larger`, `smaller` and `clampUnit` say
what happens to one that is not.
-/

set_option autoImplicit false

namespace Stylebook

/-- Numbers with comparison, rounding and a text form. -/
class Scalar (α : Type) extends Add α, Sub α, Mul α, Div α, Neg α, BEq α where
  /-- The whole number as a scalar. -/
  ofNat : Nat → α
  /-- Strictly less. -/
  less : α → α → Bool
  /-- The remainder of a division by a positive number, never negative. -/
  remainder : α → α → α
  /-- The whole part of a number that is not negative, zero for any other. -/
  wholePart : α → Nat
  /-- The nearest whole number, a half rounding up, zero below zero. -/
  nearestWhole : α → Nat
  /-- The number a text denotes. -/
  read? : List Char → Option α
  /-- The text of a number. -/
  render : α → String

/-- Scalars with the sine and cosine of an angle in degrees. -/
class Trigonometric (α : Type) where
  /-- Sine and cosine of an angle in degrees. -/
  sinCos : α → α × α

namespace Scalar

variable {α : Type} [Scalar α]

def zero : α := ofNat 0

def one : α := ofNat 1

/-- Whether a scalar is comparable with itself. -/
def isComparable (x : α) : Bool := x == x

/-- The larger of two scalars, the first of two equal ones; one that is not comparable gives way. -/
def larger (x y : α) : α :=
  if !isComparable x then y else if less x y then y else x

/-- The smaller of two scalars, the first of two equal ones; one that is not comparable gives way. -/
def smaller (x y : α) : α :=
  if !isComparable x then y else if less y x then y else x

/-- The nearest scalar between zero and one; one that is not comparable stays. -/
def clampUnit (x : α) : α :=
  if less x zero then zero else if less one x then one else x

/-- The distance from zero. -/
def size (x : α) : α :=
  if less x zero then -x else x

end Scalar

end Stylebook
