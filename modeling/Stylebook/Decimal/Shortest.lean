import Stylebook.Decimal.Double

/-!
# The shortest decimal of a double

Among the decimals that read back as a given double, `shortest` picks one with the fewest digits and,
of those, the nearest; of two equally near the larger. All arithmetic is on whole numbers.

The reals that round to `m * 2 ^ q` form an interval whose ends lie half a step away (a quarter of a
step below, where the steps become finer), and the ends belong to it when `m` is even. A grid of
decimals, `c * 10 ^ k` for all `c`, meets the interval exactly when one of the two neighbours of the
double on that grid does, so the coarsest grid with a hit gives the digits.

`render` writes the digits without an exponent and without a point for whole numbers.
-/

set_option autoImplicit false

namespace Stylebook.Decimal

/-- The decimals `digits * 10 ^ exponent`. -/
structure Digits where
  digits : Nat
  exponent : Int
  deriving Repr, DecidableEq

/-- The interval of reals that round to `m * 2 ^ q`, in quarters of `2 ^ q`: its two ends and whether
they belong to it. -/
structure Rounding where
  low : Nat
  high : Nat
  closed : Bool

/-- The rounding interval of `m * 2 ^ q`. -/
def Rounding.of (m : Nat) (q : Int) : Rounding :=
  let low := if m = hiddenUnit ∧ leastExponent < q then 4 * m - 1 else 4 * m - 2
  ⟨low, 4 * m + 2, m % 2 == 0⟩

/-- Whether the quotient `a / b` lies in the interval. -/
def Rounding.contains (r : Rounding) (a b : Nat) : Bool :=
  if r.closed then r.low * b ≤ a && a ≤ r.high * b else r.low * b < a && a < r.high * b

/-- The best decimal of `m * 2 ^ q` on the grid of step `10 ^ k`, if the grid has one. -/
def onGrid? (m : Nat) (q k : Int) : Option Digits :=
  let r := Rounding.of m q
  let up := Nat.pow 10 k.toNat * 4 * Nat.pow 2 (-q).toNat
  let down := Nat.pow 10 (-k).toNat * Nat.pow 2 q.toNat
  let below := 4 * m * down / up
  let above := below + 1
  match r.contains (below * up) down, r.contains (above * up) down with
  | true, true =>
    if 4 * m * down - below * up < above * up - 4 * m * down then some ⟨below, k⟩
    else some ⟨above, k⟩
  | true, false => some ⟨below, k⟩
  | false, true => some ⟨above, k⟩
  | false, false => none

/-- The first hit on the grids of exponents `k`, `k - 1`, …; `tries` bounds their number. -/
def firstHit (m : Nat) (q : Int) : (tries : Nat) → (k : Int) → Digits
  | 0, k => ⟨0, k⟩
  | tries + 1, k => (onGrid? m q k).getD (firstHit m q tries (k - 1))

/-- The shortest decimal of the positive double `m * 2 ^ q`. Seventeen digits always suffice, and the
search starts at most two grids above the leading digit. -/
def shortest (m : Nat) (q : Int) : Digits :=
  let bits : Int := Nat.log2 m + 1 + q
  firstHit m q 24 (bits * 30103 / 100000 + 1)

/-- The digits of a decimal without an exponent. -/
def Digits.render (d : Digits) : List Char :=
  let ds := Nat.toDigits 10 d.digits
  match d.exponent with
  | .ofNat zeros => ds ++ List.replicate zeros '0'
  | .negSucc places =>
    let fraction := places + 1
    if fraction < ds.length then
      ds.take (ds.length - fraction) ++ '.' :: ds.drop (ds.length - fraction)
    else '0' :: '.' :: (List.replicate (fraction - ds.length) '0' ++ ds)

/-- A double as text: the shortest decimal that reads back, without an exponent. -/
def render (x : Float) : String :=
  match decode x with
  | .notNumber => "NaN"
  | .infinite negative => if negative then "-inf" else "inf"
  | .finite negative m q =>
    let size := if m = 0 then ['0'] else (shortest m q).render
    String.ofList (if negative then '-' :: size else size)

end Stylebook.Decimal
