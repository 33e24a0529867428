import Stylebook.Text.Alphanumeric
import Stylebook.Text.UnprintableRanges

/-!
# Quoted text

The quoted form of a text stands between double quotes. A quote and a backslash get a backslash in
front, tab, line feed, carriage return and the null character have letters of their own, and a
character that is not shown as it is (a control, an unassigned code point, a mark that joins the
character before it) is written by its number in hexadecimal digits.
-/

set_option autoImplicit false

namespace Stylebook.Text

/-- The escape that writes a character by its number. -/
def numberEscape (c : Char) : List Char :=
  ['\\', 'u', '\x7b'] ++ Nat.toDigits 16 c.toNat ++ ['\x7d']

/-- How one character stands in a quoted text. -/
def quotedChar (c : Char) : List Char :=
  if c = '\\' || c = '"' then ['\\', c]
  else if c = '\t' then ['\\', 't']
  else if c = '\n' then ['\\', 'n']
  else if c = '\r' then ['\\', 'r']
  else if c.toNat = 0 then ['\\', '0']
  else if c.toNat < 32 || inRanges unprintableRanges c.toNat then numberEscape c
  else [c]

/-- A text between double quotes, with escapes. -/
def quoted (text : String) : String :=
  String.ofList ('"' :: (text.toList.flatMap quotedChar ++ ['"']))

end Stylebook.Text
