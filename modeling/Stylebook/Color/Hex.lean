import Stylebook.Color.Basic
import Stylebook.Token.Lexer

/-!
# Colours in hexadecimal digits

Three, four, six or eight digits, with or without a number sign in front. In the short forms each digit
stands for two of its kind; without digits for alpha the colour is opaque.
-/

set_option autoImplicit false

namespace Stylebook.Color

/-- The value of a hexadecimal digit. -/
def hexValue (c : Char) : Nat :=
  if c.isDigit then c.toNat - 48 else c.toLower.toNat - 87

/-- The bytes for red, green, blue and perhaps alpha that a row of digits gives. -/
def hexBytes? : List Nat → Option (List Nat)
  | [r, g, b] => some [17 * r, 17 * g, 17 * b]
  | [r, g, b, a] => some [17 * r, 17 * g, 17 * b, 17 * a]
  | [r, r', g, g', b, b'] => some [16 * r + r', 16 * g + g', 16 * b + b']
  | [r, r', g, g', b, b', a, a'] => some [16 * r + r', 16 * g + g', 16 * b + b', 16 * a + a']
  | _ => none

/-- The digits behind an optional number sign. -/
def hexDigits : List Char → List Char
  | '#' :: ds => ds
  | ds => ds

/-- The colour of a row of hexadecimal digits. -/
def ofHex? {α : Type} [Scalar α] (text : List Char) : Option (Color α) :=
  let digits := hexDigits text
  if digits.all Lexer.isHexDigit then
    match hexBytes? (digits.map hexValue) with
    | some [r, g, b] => some (ofBytes r g b)
    | some [r, g, b, a] => some ⟨channel r, channel g, channel b, channel a⟩
    | _ => none
  else none

end Stylebook.Color
