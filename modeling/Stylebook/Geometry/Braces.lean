import Stylebook.Geometry.Basic
import Stylebook.Text.Blank
import Stylebook.Text.Split

/-!
# Reading figures in braces

A figure in braces is read generously: once the text is known to start with an opening and to end with
a closing brace, blanks around it apart, all braces are dropped and what remains must be as many numbers
as the figure has components, separated by commas.
-/

set_option autoImplicit false

namespace Stylebook

/-- A text that is not the written form of a figure. -/
structure GeometryError where
  shape : String
  input : String
  expected : Nat
  deriving Repr, DecidableEq

def GeometryError.message (e : GeometryError) : String :=
  "invalid " ++ e.shape ++ " string '" ++ e.input ++ "': expected " ++ toString e.expected
    ++ " numeric components"

/-- The text without braces, if it starts and ends with one. -/
def unbraced? (cs : List Char) : Option (List Char) :=
  if cs.head? = some '\x7b' ∧ cs.getLast? = some '\x7d' then
    some (cs.filter fun c => c ≠ '\x7b' && c ≠ '\x7d')
  else none

/-- The numbers of a text in braces. -/
def braceComponents? {α : Type} [Scalar α] (cs : List Char) : Option (List α) :=
  (unbraced? (Text.trim cs)).bind fun flat =>
    (Text.splitWhere (· == ',') flat).mapM fun field => Scalar.read? (Text.trim field)

def Shape.parse {S : Type → Type} [Shape S] {α : Type} [Scalar α] (text : String) :
    Except GeometryError (S α) :=
  let error : GeometryError := ⟨Shape.name S, text, Shape.count S⟩
  match braceComponents? text.toList with
  | none => .error error
  | some values =>
    if values.length = Shape.count S then
      match Shape.ofComponents? values with
      | some figure => .ok figure
      | none => .error error
    else .error error

end Stylebook
