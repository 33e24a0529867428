/-!
# Splitting text

`splitWhere` cuts a text at every character of a class. The cuts are not part of the pieces, and there
is always one piece more than there are cuts.
-/

set_option autoImplicit false

namespace Stylebook.Text

/-- The pieces of a text between the characters of class `p`. -/
def splitWhere (p : Char → Bool) : List Char → List (List Char)
  | [] => [[]]
  | c :: cs =>
    if p c then [] :: splitWhere p cs
    else match splitWhere p cs with
      | [] => [[c]]
      | w :: ws => (c :: w) :: ws

theorem splitWhere_of_none {p : Char → Bool} {w : List Char} (none : ∀ c ∈ w, p c = false) :
    splitWhere p w = [w] := by
  induction w with
  | nil => rfl
  | cons c w ih =>
    obtain ⟨here, later⟩ := List.forall_mem_cons.mp none
    simp [splitWhere, here, ih later]

theorem splitWhere_append_cons {p : Char → Bool} {w : List Char} (none : ∀ c ∈ w, p c = false) {d : Char}
    (cut : p d = true) (rest : List Char) : splitWhere p (w ++ d :: rest) = w :: splitWhere p rest := by
  induction w with
  | nil => simp [splitWhere, cut]
  | cons c w ih =>
    obtain ⟨here, later⟩ := List.forall_mem_cons.mp none
    simp [splitWhere, here, ih later]

/-- Texts without cuts are what a text of them with one cut between neighbours is cut into. -/
theorem splitWhere_intercalate_singleton {p : Char → Bool} {d : Char} (cut : p d = true) {ws : List (List Char)}
    (nonempty : ws ≠ []) (none : ∀ w ∈ ws, ∀ c ∈ w, p c = false) : splitWhere p ([d].intercalate ws) = ws := by
  induction ws with
  | nil => exact absurd rfl nonempty
  | cons w ws ih =>
    obtain ⟨here, later⟩ := List.forall_mem_cons.mp none
    cases ws with
    | nil =>
      rw [List.intercalate_singleton]
      exact splitWhere_of_none here
    | cons v ws =>
      rw [List.intercalate_cons_cons, List.append_assoc, List.singleton_append, splitWhere_append_cons here cut,
        ih (List.cons_ne_nil v ws) later]

/-- The texts one after another, with `between` between neighbours. -/
def join (between : List Char) : List (List Char) → List Char
  | [] => []
  | [w] => w
  | w :: ws => w ++ between ++ join between ws

end Stylebook.Text
