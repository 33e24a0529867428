import Stylebook.Geometry.Basic

/-!
# Affine maps of the plane

A transform maps a point `(x, y)` to `(a x + c y + tx, b x + d y + ty)`. `t.concat u` is `t` followed by
`u`.
-/

set_option autoImplicit false

namespace Stylebook

/-- An affine map of the plane, given by its matrix for row vectors. -/
structure Transform (α : Type) where
  a : α
  b : α
  c : α
  d : α
  tx : α
  ty : α
  deriving Repr, BEq, DecidableEq

namespace Transform

variable {α : Type} [Scalar α]

/-- The map that leaves every point where it is. -/
def identity : Transform α :=
  ⟨Scalar.one, Scalar.zero, Scalar.zero, Scalar.one, Scalar.zero, Scalar.zero⟩

/-- The rotation by an angle in degrees. -/
def rotation [Trigonometric α] (degrees : α) : Transform α :=
  let (sin, cos) := Trigonometric.sinCos degrees
  ⟨cos, sin, -sin, cos, Scalar.zero, Scalar.zero⟩

/-- Stretching by one factor along each axis. -/
def scale (sx sy : α) : Transform α :=
  ⟨sx, Scalar.zero, Scalar.zero, sy, Scalar.zero, Scalar.zero⟩

/-- Moving every point by the same amount. -/
def translation (tx ty : α) : Transform α :=
  ⟨Scalar.one, Scalar.zero, Scalar.zero, Scalar.one, tx, ty⟩

/-- The map `t` followed by the map `u`. -/
def concat (t u : Transform α) : Transform α where
  a := t.a * u.a + t.b * u.c
  b := t.a * u.b + t.b * u.d
  c := t.c * u.a + t.d * u.c
  d := t.c * u.b + t.d * u.d
  tx := t.tx * u.a + t.ty * u.c + u.tx
  ty := t.tx * u.b + t.ty * u.d + u.ty

/-- Where the map takes a point. -/
def apply (t : Transform α) (p : Point α) : Point α :=
  ⟨t.a * p.x + t.c * p.y + t.tx, t.b * p.x + t.d * p.y + t.ty⟩

def isIdentity (t : Transform α) : Bool :=
  t == identity

/-- The written form of a transform: its six numbers between brackets. -/
def text (t : Transform α) : String :=
  enclosed "[" "]" [Scalar.render t.a, Scalar.render t.b, Scalar.render t.c, Scalar.render t.d,
    Scalar.render t.tx, Scalar.render t.ty]

end Transform

end Stylebook
