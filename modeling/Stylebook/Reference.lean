import Stylebook.Text.Alphanumeric

/-!
# References to variables in text

A reference is an at sign or two dashes with a name behind. The name starts with a letter, a digit or an
underscore of any script and goes on with these and dashes. `segments` cuts a text into references and
what stands between them; the segments written one after another are the text again.
-/

set_option autoImplicit false

namespace Stylebook

namespace Reference

/-- A name without the mark of a reference in front of it. -/
def bare : List Char → List Char
  | '-' :: '-' :: name => name
  | '@' :: name => name
  | name => name

/-- Characters that start the name of a reference. -/
def startsName (c : Char) : Bool :=
  Text.isAlphanumeric c || c == '_'

/-- Characters that go on with the name of a reference. -/
def isNameChar (c : Char) : Bool :=
  Text.isAlphanumeric c || c == '-' || c == '_'

/-- Length of the mark of a reference that starts here; zero if none does. -/
def markLength : List Char → Nat
  | '@' :: c :: _ => if startsName c then 1 else 0
  | '-' :: '-' :: c :: _ => if startsName c then 2 else 0
  | _ => 0

/-- A part of a text. -/
inductive Segment where
  /-- A character that is not in a reference. -/
  | plain (c : Char)
  | reference (mark name : List Char)
  deriving DecidableEq

/-- The characters of a segment. -/
def Segment.chars : Segment → List Char
  | .plain c => [c]
  | .reference mark name => mark ++ name

/-- The references of a text and the characters between them, from left to right. -/
def segments : List Char → List Segment
  | [] => []
  | c :: cs =>
    let mark := markLength (c :: cs)
    if mark = 0 then .plain c :: segments cs
    else
      let behind := cs.drop (mark - 1)
      .reference (c :: cs.take (mark - 1)) (behind.takeWhile isNameChar)
        :: segments (behind.dropWhile isNameChar)
  termination_by cs => cs.length
  decreasing_by
    · simp
    · have h : ∀ n, ((cs.drop n).dropWhile isNameChar).length ≤ cs.length := fun n =>
        Nat.le_trans (List.dropWhile_suffix isNameChar).length_le
          (by simp only [List.length_drop]; omega)
      exact Nat.lt_succ_of_le (h _)

/-- Nothing is lost by cutting a text into segments. -/
theorem flatMap_segments (cs : List Char) : (segments cs).flatMap Segment.chars = cs := by
  fun_induction segments cs with
  | case1 => rfl
  | case2 c cs mark h ih => simp [Segment.chars, ih]
  | case3 c cs mark h behind ih =>
    simp only [List.flatMap_cons, Segment.chars, ih, behind]
    rw [List.append_assoc, List.takeWhile_append_dropWhile]
    simp

end Reference

end Stylebook
