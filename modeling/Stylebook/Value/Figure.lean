import Stylebook.Text.Quotes
import Stylebook.Value.Basic
import Stylebook.Value.Reading

/-!
# Reading points, offsets, sizes, rectangles and insets

A figure is a row of numbers: bare, in parentheses, or in parentheses behind the name of the figure. A
quoted figure is read from its written form in braces instead.
-/

set_option autoImplicit false

namespace Stylebook

variable {α : Type} [Scalar α]

/-- Takes a figure that fills the rest of the tokens. -/
def takeFigure {S : Type → Type} [Shape S] : Reading (S α) := do
  let values ← Reading.numericParameters (Shape.name S)
  Reading.finish
  match Shape.ofComponents? values with
  | some figure => pure figure
  | none => Reading.fail (.componentCount values.length)

def readFigure {S : Type → Type} [Shape S] (type : ValueType) (raw : List Char) :
    Except ValueError (S α) :=
  if Text.isQuoted raw then
    match Shape.parse (String.ofList (Text.trimQuotes raw)) with
    | .ok figure => .ok figure
    | .error e => .error (.invalid type (.badFigure e))
  else Reading.of type raw takeFigure

def readRect (type : ValueType) (raw : List Char) : Except ValueError (Value α) :=
  (readFigure type raw).map .rect

def readOffset (type : ValueType) (raw : List Char) : Except ValueError (Value α) :=
  (readFigure type raw).map .offset

def readSize (type : ValueType) (raw : List Char) : Except ValueError (Value α) :=
  (readFigure type raw).map .size

def readPoint (type : ValueType) (raw : List Char) : Except ValueError (Value α) :=
  (readFigure type raw).map .point

def readInsets (type : ValueType) (raw : List Char) : Except ValueError (Value α) :=
  (readFigure type raw).map .insets

end Stylebook
