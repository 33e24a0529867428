import Stylebook.Text.Blank

/-!
# Quotes around text

`trimQuotes` takes blanks and quotes of both kinds off the two ends of a text, however many there are.
`isQuoted` holds of a text that, blanks at its ends apart, starts and ends with the same quote.
-/

set_option autoImplicit false

namespace Stylebook.Text

/-- The two quotes. -/
def isQuote (c : Char) : Bool :=
  c == '"' || c == '\''

/-- The text without blanks and quotes at its ends. -/
def trimQuotes (cs : List Char) : List Char :=
  trimWhile (fun c => isBlank c || isQuote c) cs

/-- Whether the text stands between two quotes of one kind. -/
def isQuoted (cs : List Char) : Bool :=
  match trim cs with
  | [] => false
  | c :: rest => isQuote c && rest.getLast? == some c

end Stylebook.Text
