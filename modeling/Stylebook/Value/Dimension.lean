import Stylebook.Scalar.Basic
import Stylebook.Text.Lowercase
import Stylebook.Token.Basic

/-!
# Numbers with units

A dimension is a number with a unit behind it. Where a plain number is wanted, points and pixels are
accepted and mean the number itself; where any unit will do, it is dropped.
-/

set_option autoImplicit false

namespace Stylebook

/-- The sign in front of a text, if there is one, and what follows. -/
def splitSign : List Char → List Char × List Char
  | c :: cs => if c = '-' ∨ c = '+' then ([c], cs) else ([], c :: cs)
  | [] => ([], [])

/-- Characters of an unsigned number. -/
def isNumberChar (c : Char) : Bool :=
  c.isDigit || c == '.'

/-- The number and the unit of a dimension; none if one of them is missing. -/
def splitDimension? {α : Type} [Scalar α] (cs : List Char) : Option (α × List Char) :=
  let (sign, body) := splitSign cs
  let number := sign ++ body.takeWhile isNumberChar
  let unit := body.dropWhile isNumberChar
  if number.isEmpty || unit.isEmpty then none
  else (Scalar.read? number).map (·, unit)

/-- Whether a unit is that of lengths: points or pixels. -/
def isLengthUnit (unit : List Char) : Bool :=
  Text.sameIgnoringCase unit ['p', 't'] || Text.sameIgnoringCase unit ['p', 'x']

/-- The number that a token stands for by itself: a number, or a dimension in points or pixels. -/
def Token.number? {α : Type} [Scalar α] (t : Token) : Option α :=
  match t.kind with
  | .number => Scalar.read? t.chars
  | .dimension =>
    match splitDimension? t.chars with
    | some (n, unit) => if isLengthUnit unit then some n else none
    | none => none
  | _ => none

/-- The number that a token stands for when its unit is dropped. -/
def Token.looseNumber? {α : Type} [Scalar α] (t : Token) : Option α :=
  match t.kind with
  | .dimension => (splitDimension? t.chars).map (·.1)
  | _ => t.number?

end Stylebook
