import Stylebook.Scalar.Basic

/-!
# Points, sizes, offsets, rectangles and insets

Plain records of scalars. Each can be built from a row of components, where one component may stand for
several, and each has a written form in braces.
-/

set_option autoImplicit false

namespace Stylebook

/-- A position in the plane. -/
structure Point (α : Type) where
  x : α
  y : α
  deriving Repr, BEq, DecidableEq

/-- A displacement in the plane. -/
structure Offset (α : Type) where
  horizontal : α
  vertical : α
  deriving Repr, BEq, DecidableEq

/-- A width and a height. -/
structure Size (α : Type) where
  width : α
  height : α
  deriving Repr, BEq, DecidableEq

/-- A rectangle by the position of its corner and its size. -/
structure Rect (α : Type) where
  x : α
  y : α
  width : α
  height : α
  deriving Repr, BEq, DecidableEq

/-- Distances from the four edges of a rectangle. -/
structure Insets (α : Type) where
  top : α
  left : α
  bottom : α
  right : α
  deriving Repr, BEq, DecidableEq

variable {α : Type}

/-! ## Arithmetic -/

section Arithmetic

variable [Scalar α]

instance : HAdd (Point α) (Offset α) (Point α) where
  hAdd p d := ⟨p.x + d.horizontal, p.y + d.vertical⟩

instance : HSub (Point α) (Point α) (Offset α) where
  hSub p q := ⟨p.x - q.x, p.y - q.y⟩

instance : Add (Offset α) where
  add d e := ⟨d.horizontal + e.horizontal, d.vertical + e.vertical⟩

instance : Neg (Offset α) where
  neg d := ⟨-d.horizontal, -d.vertical⟩

instance : HMul (Offset α) α (Offset α) where
  hMul d k := ⟨d.horizontal * k, d.vertical * k⟩

def Point.zero : Point α := ⟨Scalar.zero, Scalar.zero⟩

def Offset.zero : Offset α := ⟨Scalar.zero, Scalar.zero⟩

def Size.zero : Size α := ⟨Scalar.zero, Scalar.zero⟩

def Rect.zero : Rect α := ⟨Scalar.zero, Scalar.zero, Scalar.zero, Scalar.zero⟩

def Insets.zero : Insets α := ⟨Scalar.zero, Scalar.zero, Scalar.zero, Scalar.zero⟩

def Size.area (s : Size α) : α := s.width * s.height

/-- The rectangle shrunk by the insets at each edge. -/
def Rect.inset (r : Rect α) (i : Insets α) : Rect α :=
  ⟨r.x + i.left, r.y + i.top, r.width - i.left - i.right, r.height - i.top - i.bottom⟩

def Insets.horizontal (i : Insets α) : α := i.left + i.right

def Insets.vertical (i : Insets α) : α := i.top + i.bottom

end Arithmetic

def Rect.origin (r : Rect α) : Point α := ⟨r.x, r.y⟩

def Rect.size (r : Rect α) : Size α := ⟨r.width, r.height⟩

def Insets.all (k : α) : Insets α := ⟨k, k, k, k⟩

/-- One inset at top and bottom and one at left and right. -/
def Insets.symmetric (vertical horizontal : α) : Insets α :=
  ⟨vertical, horizontal, vertical, horizontal⟩

/-! ## Components -/

/-- Figures that are given by a row of numbers under a common name. -/
class Shape (S : Type → Type) where
  name : String
  /-- How many numbers describe the figure in full. -/
  count : Nat
  /-- The figure that a row of numbers describes, in full or in short. -/
  ofComponents? : {α : Type} → List α → Option (S α)

instance : Shape Point where
  name := "point"
  count := 2
  ofComponents?
    | [v] => some ⟨v, v⟩
    | [x, y] => some ⟨x, y⟩
    | _ => none

instance : Shape Offset where
  name := "offset"
  count := 2
  ofComponents?
    | [v] => some ⟨v, v⟩
    | [horizontal, vertical] => some ⟨horizontal, vertical⟩
    | _ => none

instance : Shape Size where
  name := "size"
  count := 2
  ofComponents?
    | [v] => some ⟨v, v⟩
    | [width, height] => some ⟨width, height⟩
    | _ => none

instance : Shape Rect where
  name := "rect"
  count := 4
  ofComponents?
    | [x, y, width, height] => some ⟨x, y, width, height⟩
    | _ => none

instance : Shape Insets where
  name := "insets"
  count := 4
  ofComponents?
    | [v] => some (.all v)
    | [vertical, horizontal] => some (.symmetric vertical horizontal)
    | [top, left, bottom, right] => some ⟨top, left, bottom, right⟩
    | _ => none

/-! ## Written form -/

/-- Members between a pair of marks, separated by commas. -/
def enclosed (first last : String) (members : List String) : String :=
  first ++ String.intercalate ", " members ++ last

def braced (members : List String) : String :=
  enclosed "\x7b" "\x7d" members

section Text

variable [Scalar α]

def Point.text (p : Point α) : String :=
  braced [Scalar.render p.x, Scalar.render p.y]

def Offset.text (d : Offset α) : String :=
  braced [Scalar.render d.horizontal, Scalar.render d.vertical]

def Size.text (s : Size α) : String :=
  braced [Scalar.render s.width, Scalar.render s.height]

def Rect.text (r : Rect α) : String :=
  braced [r.origin.text, r.size.text]

def Insets.text (i : Insets α) : String :=
  braced [Scalar.render i.top, Scalar.render i.left, Scalar.render i.bottom, Scalar.render i.right]

end Text

end Stylebook
