import Stylebook.Text.Quotes
import Stylebook.Value.Basic
import Stylebook.Value.Reading

/-!
# Reading texts, truth values and numbers

Quotes and blanks around these are taken off first. In a text, a backslash stands for what follows it,
where `n` and `t` mean line feed and tab. A truth value is true when it starts with a `y` or `t`, or is a
number whose first digit that is not zero comes before anything else.
-/

set_option autoImplicit false

namespace Stylebook

variable {α : Type}

/-- What a character behind a backslash stands for. -/
def escapedChar (c : Char) : Char :=
  if c = 'n' then '\n' else if c = 't' then '\t' else c

/-- The text with its backslash escapes resolved; a backslash at the end stands for itself. -/
def unescape : List Char → List Char
  | [] => []
  | '\\' :: cs =>
    match cs with
    | [] => ['\\']
    | c :: rest => escapedChar c :: unescape rest
  | c :: cs => c :: unescape cs

/-- Reads a text, quoted or not. -/
def readString (_ : ValueType) (raw : List Char) : Except ValueError (Value α) :=
  .ok (.string (String.ofList (unescape (Text.trimQuotes raw))))

/-- Whether a text without quotes and sign counts as true. -/
def isTruthy (cs : List Char) : Bool :=
  match cs with
  | [] => false
  | c :: _ =>
    if c = 'y' ∨ c = 'Y' ∨ c = 't' ∨ c = 'T' then true
    else if c.isDigit then
      match cs.dropWhile (· == '0') with
      | [] => false
      | d :: _ => d.isDigit
    else false

/-- Reads a truth value; every text is one. -/
def readBool (_ : ValueType) (raw : List Char) : Except ValueError (Value α) :=
  .ok (.bool (isTruthy (splitSign (Text.trimQuotes raw)).2))

variable [Scalar α]

def readNumber (type : ValueType) (raw : List Char) : Except ValueError (Value α) :=
  (Reading.whole type (Text.trimQuotes raw) Reading.number).map .number

def takePercentage (t : Token) : Reading (RelativeNumber α) := do
  let _ ← Reading.advance?
  match splitDimension? t.chars with
  | some (p, _) => pure (.percent p)
  | none => Reading.fail .badPercentage

def takeRelativeNumber : Reading (RelativeNumber α) := do
  if ← Reading.eatKeyword "auto" then return .auto
  if ← Reading.eat .star then return .auto
  match ← Reading.peek? with
  | some t =>
    if t.kind = .dimension ∧ t.chars.getLast? = some '%' then takePercentage t
    else return .absolute (← Reading.number)
  | none => return .absolute (← Reading.number)

/-- Reads a relative number: `auto` or a star, a percentage, or a number. -/
def readRelativeNumber (type : ValueType) (raw : List Char) : Except ValueError (Value α) :=
  (Reading.whole type (Text.trimQuotes raw) takeRelativeNumber).map .relative

end Stylebook
