/-!
# Numerals

The texts that are read as numbers: an optional sign, then digits with an optional point among, before
or after them and an optional exponent, or one of the words `inf`, `infinity` and `nan` in any letter
case. Nothing else is a numeral: no blanks, no separators, no other radix.

A finite numeral denotes `digits * 10 ^ exponent` exactly; `toFloat` rounds it to the nearest double.
-/

set_option autoImplicit false

namespace Stylebook.Decimal

/-- What a numeral denotes, its sign apart. -/
inductive Magnitude where
  | finite (digits : Nat) (exponent : Int)
  | infinite
  | notNumber
  deriving Repr, DecidableEq

/-- A numeral that was read. -/
structure Numeral where
  negative : Bool
  magnitude : Magnitude
  deriving Repr, DecidableEq

/-- The number that a row of decimal digits denotes. -/
def ofDigits (ds : List Char) : Nat :=
  ds.foldl (fun n c => 10 * n + (c.toNat - 48)) 0

/-- The sign in front of a text, true for a minus, and what follows it. -/
def takeSign : List Char → Bool × List Char
  | '-' :: cs => (true, cs)
  | '+' :: cs => (false, cs)
  | cs => (false, cs)

/-- An exponent part: empty, or `e` with a signed row of digits. -/
def exponent? : List Char → Option Int
  | [] => some 0
  | c :: cs =>
    if c = 'e' ∨ c = 'E' then
      let (negative, ds) := takeSign cs
      if ds.isEmpty || !ds.all Char.isDigit then none
      else some (if negative then -(ofDigits ds : Int) else ofDigits ds)
    else none

/-- What an unsigned numeral denotes. -/
def magnitude? (cs : List Char) : Option Magnitude :=
  let whole := cs.takeWhile Char.isDigit
  let rest := cs.dropWhile Char.isDigit
  let (fraction, tail) := match rest with
    | '.' :: r => (r.takeWhile Char.isDigit, r.dropWhile Char.isDigit)
    | r => ([], r)
  if whole.isEmpty && fraction.isEmpty then
    match String.ofList (cs.map Char.toLower) with
    | "inf" => some .infinite
    | "infinity" => some .infinite
    | "nan" => some .notNumber
    | _ => none
  else (exponent? tail).map fun e => .finite (ofDigits (whole ++ fraction)) (e - fraction.length)

def Numeral.read? (cs : List Char) : Option Numeral :=
  let (negative, rest) := takeSign cs
  (magnitude? rest).map (⟨negative, ·⟩)

/-- The nearest double to `digits * 10 ^ exponent`. Numbers beyond the range of doubles are settled
by the position of their leading digit alone. -/
def nearestDouble (digits : Nat) (exponent : Int) : Float :=
  if digits = 0 then 0.0
  else
    let leading : Int := (Nat.toDigits 10 digits).length + exponent
    if 310 < leading then 1.0 / 0.0
    else if leading < -330 then 0.0
    else Float.ofScientific digits (decide (exponent < 0)) exponent.natAbs

/-- The nearest double to what a numeral denotes. -/
def Numeral.toFloat (n : Numeral) : Float :=
  let size := match n.magnitude with
    | .finite digits exponent => nearestDouble digits exponent
    | .infinite => 1.0 / 0.0
    | .notNumber => 0.0 / 0.0
  if n.negative then -size else size

/-- The exact value of a finite numeral. -/
def Numeral.toRat? (n : Numeral) : Option Rat :=
  match n.magnitude with
  | .finite digits exponent =>
    let size : Rat := (digits : Rat) * (10 : Rat) ^ exponent
    some (if n.negative then -size else size)
  | _ => none

end Stylebook.Decimal
