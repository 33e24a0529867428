import Stylebook.Font.Style
import Stylebook.Scalar.Basic

/-!
# Fonts

A typeface with a size in points and, if the font follows the reader's text size, the text style it
follows. Changing the size never makes it negative.
-/

set_option autoImplicit false

namespace Stylebook

/-- A typeface at a size. -/
structure Font (α : Type) where
  typeface : Typeface
  size : α
  /-- The text style whose scaling the font follows. -/
  scaledFor : Option TextStyle
  deriving Repr, BEq, DecidableEq

namespace Font

variable {α : Type} [Scalar α]

/-- A typeface at a size that follows no text style. -/
def plain (typeface : Typeface) (size : α) : Font α :=
  ⟨typeface, size, none⟩

/-- The font of a text style at its usual size. -/
def preferred (s : TextStyle) : Font α :=
  plain (.style s) (Scalar.ofNat s.usualSize)

def withSize (f : Font α) (size : α) : Font α :=
  { f with size := Scalar.larger Scalar.zero size }

/-- The font following a text style. -/
def scaled (f : Font α) (s : TextStyle) : Font α :=
  { f with scaledFor := some s }

def text (f : Font α) : String :=
  f.typeface.text ++ " " ++ Scalar.render f.size ++ "pt"
    ++ (match f.scaledFor with
      | some s => " scaled(" ++ s.name ++ ")"
      | none => "")

end Font

end Stylebook
