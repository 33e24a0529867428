/-!
# Looking for a word in a text
-/

set_option autoImplicit false

namespace Stylebook.Text

/-- Whether the word occurs in the text. -/
def occurs (word : List Char) : List Char → Bool
  | [] => word.isEmpty
  | c :: cs => word.isPrefixOf (c :: cs) || occurs word cs

/-- What follows the last character `mark` of a text; the whole text if there is none. -/
def afterLast (mark : Char) (cs : List Char) : List Char :=
  (cs.reverse.takeWhile (· ≠ mark)).reverse

end Stylebook.Text
