/-!
# Byte offsets in text

Positions in a text are counted in bytes of its UTF-8 form. `byteSize` is the length of a text in
that measure, and `dropBytes?` cuts a text at an offset: it answers only if the offset lies between
two characters.
-/

set_option autoImplicit false

namespace Stylebook.Text

/-- Length in bytes of the UTF-8 form. -/
def byteSize : List Char → Nat
  | [] => 0
  | c :: cs => c.utf8Size + byteSize cs

/-- What follows the first `n` bytes; `none` if `n` is inside a character or beyond the end. -/
def dropBytes? : List Char → Nat → Option (List Char)
  | cs, 0 => some cs
  | [], _ + 1 => none
  | c :: cs, n + 1 => if c.utf8Size ≤ n + 1 then dropBytes? cs (n + 1 - c.utf8Size) else none

@[simp] theorem byteSize_nil : byteSize [] = 0 := rfl

@[simp] theorem byteSize_cons (c : Char) (cs : List Char) :
    byteSize (c :: cs) = c.utf8Size + byteSize cs := rfl

@[simp] theorem byteSize_append (a b : List Char) :
    byteSize (a ++ b) = byteSize a + byteSize b := by
  induction a with
  | nil => simp
  | cons c cs ih => simp [ih, Nat.add_assoc]

/-- Cutting goes on behind a leading part. -/
theorem dropBytes?_append_add (a b : List Char) (n : Nat) :
    dropBytes? (a ++ b) (byteSize a + n) = dropBytes? b n := by
  induction a with
  | nil => simp
  | cons c cs ih =>
    have hpos : 0 < c.utf8Size := Char.utf8Size_pos c
    obtain ⟨k, hk⟩ : ∃ k, c.utf8Size + byteSize cs + n = k + 1 :=
      ⟨c.utf8Size + byteSize cs + n - 1, by omega⟩
    simp only [List.cons_append, byteSize_cons, hk, dropBytes?]
    have hle : c.utf8Size ≤ k + 1 := by omega
    have hsub : k + 1 - c.utf8Size = byteSize cs + n := by omega
    simp [hle, hsub, ih]

/-- Cutting at the size of a leading part leaves the rest. -/
@[simp] theorem dropBytes?_append (a b : List Char) :
    dropBytes? (a ++ b) (byteSize a) = some b := by
  have cut := dropBytes?_append_add a b 0
  rwa [Nat.add_zero, dropBytes?] at cut

/-- Where a text can be cut, it can be cut if it goes on. -/
theorem dropBytes?_append_of_some {a rest : List Char} {n : Nat} (h : dropBytes? a n = some rest)
    (b : List Char) : dropBytes? (a ++ b) n = some (rest ++ b) := by
  fun_induction dropBytes? a n with
  | case1 cs =>
    cases h
    rw [dropBytes?]
  | case2 => cases h
  | case3 c cs n fits ih =>
    rw [List.cons_append, dropBytes?, if_pos fits, ih h]
  | case4 => cases h

end Stylebook.Text
