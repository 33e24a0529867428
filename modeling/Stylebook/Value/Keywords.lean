import Stylebook.Text.Quotes
import Stylebook.Text.Split
import Stylebook.Value.Basic
import Stylebook.Value.Error

/-!
# Reading keywords

Keywords stand apart by blanks, commas and bars, and a quoted keyword may hold any of these. The value is
the keywords with single blanks between them.
-/

set_option autoImplicit false

namespace Stylebook

namespace Keywords

/-- Characters that separate keywords. -/
def isSeparator (c : Char) : Bool :=
  c == ',' || c == '|' || Text.isBlank c

/-- A keyword that ends here, in front of the keywords behind it; nothing if it is empty. -/
def flush (current : List Char) (behind : List (List Char)) : List (List Char) :=
  if current.isEmpty then behind else current.reverse :: behind

/-- The keywords of a text, blank ones included, where `quote` is the open quote and `current` the
keyword read so far, last character first; none if a quote is left open. -/
def splitFrom (quote : Option Char) (current : List Char) : List Char → Option (List (List Char))
  | [] => if quote.isSome then none else some (flush current [])
  | c :: cs =>
    match quote with
    | some q =>
      if c = q then (splitFrom none [] cs).map (current.reverse :: ·)
      else splitFrom quote (c :: current) cs
    | none =>
      if Text.isQuote c then (splitFrom (some c) [] cs).map (flush current)
      else if isSeparator c then (splitFrom none [] cs).map (flush current)
      else splitFrom none (c :: current) cs

/-- The keywords of a text; none if a quote is left open. -/
def split (cs : List Char) : Option (List (List Char)) :=
  (splitFrom none [] cs).map fun ks => ks.filter fun k => !(Text.trim k).isEmpty

end Keywords

def readKeywords {α : Type} (type : ValueType) (raw : List Char) : Except ValueError (Value α) :=
  match Keywords.split raw with
  | none => .error (.invalid type .unterminatedKeyword)
  | some [] => .error (.invalid type .noKeyword)
  | some ks => .ok (.keywords (String.ofList (Text.join [' '] ks)))

end Stylebook
