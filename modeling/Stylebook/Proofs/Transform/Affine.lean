import Stylebook.Geometry.Transform
import Stylebook.Proofs.Scalar.Exact

/-!
# Transforms compose

Over the rationals a transform is the map that it is applied as: `t.concat u` maps a point by `t` first and by `u` then
(`apply_concat`), `identity` leaves every point where it is, and two transforms that map all points alike are the same
(`ext_apply`). The laws of composition follow from those of maps, without another look at the matrices. So a row of
transforms that is put together from the left maps a point by one after the other (`apply_foldl_concat`).
-/

set_option autoImplicit false

namespace Stylebook.Transform

variable (t u v : Transform Rat) (p : Point Rat)

theorem apply_rat : t.apply p = ⟨t.a * p.x + t.c * p.y + t.tx, t.b * p.x + t.d * p.y + t.ty⟩ := rfl

theorem concat_rat :
    t.concat u =
      ⟨t.a * u.a + t.b * u.c, t.a * u.b + t.b * u.d, t.c * u.a + t.d * u.c, t.c * u.b + t.d * u.d,
        t.tx * u.a + t.ty * u.c + u.tx, t.tx * u.b + t.ty * u.d + u.ty⟩ := rfl

theorem identity_rat : (identity : Transform Rat) = ⟨1, 0, 0, 1, 0, 0⟩ := rfl

theorem apply_concat : (t.concat u).apply p = u.apply (t.apply p) := by
  simp only [apply_rat, concat_rat, Point.mk.injEq]
  constructor <;> ring

theorem apply_identity : (identity : Transform Rat).apply p = p := by
  simp [apply_rat, identity_rat]

variable {t u} in
/-- A transform is found out by what it does to three points. -/
theorem ext_apply (same : ∀ p, t.apply p = u.apply p) : t = u := by
  have origin := same ⟨0, 0⟩
  have right := same ⟨1, 0⟩
  have up := same ⟨0, 1⟩
  simp only [apply_rat, mul_zero, mul_one, zero_add, add_zero, Point.mk.injEq] at origin right up
  obtain ⟨tx, ty⟩ := origin
  obtain ⟨a, b⟩ := right
  obtain ⟨c, d⟩ := up
  rw [tx] at a c
  rw [ty] at b d
  cases t
  cases u
  simp_all

theorem concat_assoc : (t.concat u).concat v = t.concat (u.concat v) := by
  refine ext_apply fun p => ?_
  simp only [apply_concat]

theorem identity_concat : identity.concat t = t := by
  refine ext_apply fun p => ?_
  rw [apply_concat, apply_identity]

theorem concat_identity : t.concat identity = t := by
  refine ext_apply fun p => ?_
  rw [apply_concat, apply_identity]

theorem apply_foldl_concat (us : List (Transform Rat)) :
    (us.foldl concat t).apply p = us.foldl (fun p u => u.apply p) (t.apply p) := by
  induction us generalizing t with
  | nil => rfl
  | cons u us ih => rw [List.foldl_cons, ih, apply_concat, List.foldl_cons]

end Stylebook.Transform
