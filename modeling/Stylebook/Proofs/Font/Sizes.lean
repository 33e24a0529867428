import Stylebook.Proofs.Font.Expression
import Stylebook.Scalar.Rational

/-!
# Which fonts have a negative size

The functions that change the size of a font never make it negative. The size of a plain font is taken as it is written,
though, and numbers may have a sign. So a font has a negative size where a negative number is written for the size of a
plain font, with nothing around it but text styles (`size_neg_iff_written`). A font that names no size has the usual one,
and the typeface of a text style comes with a size of its own.
-/

set_option autoImplicit false

namespace Stylebook

namespace Font

/-! ## The size that a plain font names -/

section Components

variable {α : Type}

def Component.size? : Component α → Option α
  | size n => some n
  | name _ => none

def Component.name? : Component α → Option (List Char)
  | size _ => none
  | name cs => some cs

theorem sizeAmong_eq (usual : α) (cs : List (Component α)) :
    sizeAmong usual cs = (cs.filterMap Component.size?).getLast?.getD usual := by
  induction cs generalizing usual with
  | nil => rfl
  | cons c cs ih =>
    cases c with
    | size n =>
      have here : Component.size? (.size n) = some n := rfl
      rw [sizeAmong, ih, List.filterMap_cons_some here, List.getLast?_cons, Option.getD_some]
    | name s => rw [sizeAmong, ih, List.filterMap_cons_none rfl]

theorem nameAmong_eq (found : Option (List Char)) (cs : List (Component α)) :
    nameAmong found cs = (cs.filterMap Component.name?).getLast?.or found := by
  induction cs generalizing found with
  | nil => rfl
  | cons c cs ih =>
    cases c with
    | size n => rw [nameAmong, ih, List.filterMap_cons_none rfl]
    | name s =>
      have here : Component.name? (.name s : Component α) = some s := rfl
      rw [nameAmong, ih, List.filterMap_cons_some here, List.getLast?_cons]
      cases (cs.filterMap Component.name?).getLast? <;> rfl

/-- The last size among components, unless the last name is that of a text style. -/
def sizeWritten? (cs : List (Component α)) : Option α :=
  match (cs.filterMap Component.name?).getLast?.map Typeface.ofName with
  | some (.style _) => none
  | _ => (cs.filterMap Component.size?).getLast?

/-- The size that is written for a font and that nothing around it replaces. -/
def Expression.sizeWritten? : Expression α → Option α
  | plain first second => Font.sizeWritten? (first :: second.toList)
  | scaled inner _ => inner.sizeWritten?
  | resized _ _ _ => none

end Components

/-! ## Sizes below zero -/

theorem larger_zero_nonneg (x : Rat) : 0 ≤ Scalar.larger Scalar.zero x := by
  have comparable : Scalar.isComparable (Scalar.zero : Rat) = true := by decide +kernel
  unfold Scalar.larger
  rw [comparable]
  split
  · contradiction
  · split
    · rename_i positive
      exact Rat.le_of_lt (of_decide_eq_true positive)
    · exact Rat.le_refl

theorem size_ofComponents_neg_iff {usual : Rat} (nonneg : 0 ≤ usual) (cs : List (Component Rat)) :
    (ofComponents usual cs).size < 0 ↔ ∃ n, sizeWritten? cs = some n ∧ n < 0 := by
  have plain : (cs.filterMap Component.size?).getLast?.getD usual < 0 ↔
      ∃ n, (cs.filterMap Component.size?).getLast? = some n ∧ n < 0 := by
    cases (cs.filterMap Component.size?).getLast? with
    | none => simpa using Rat.not_lt.mpr nonneg
    | some n => simp
  unfold ofComponents sizeWritten?
  rw [nameAmong_eq, Option.or_none, sizeAmong_eq]
  generalize (cs.filterMap Component.name?).getLast?.map Typeface.ofName = typeface?
  cases typeface? with
  | none => exact plain
  | some typeface =>
    cases typeface with
    | style s =>
      have own : 0 ≤ (preferred s : Font Rat).size := Rat.natCast_nonneg
      simpa using Rat.not_lt.mpr own
    | _ => exact plain

/-- A font has a negative size where a negative one is written and stays. -/
theorem Expression.size_neg_iff {usual : Rat} (nonneg : 0 ≤ usual) (e : Expression Rat) :
    (e.font usual).size < 0 ↔ ∃ n, e.sizeWritten? = some n ∧ n < 0 := by
  induction e with
  | plain first second => exact size_ofComponents_neg_iff nonneg _
  | scaled inner style ih => exact ih
  | resized adjustment inner amount ih =>
    have clamped : 0 ≤ ((Expression.resized adjustment inner amount).font usual).size := by
      cases adjustment <;> exact larger_zero_nonneg _
    simpa [Expression.sizeWritten?] using Rat.not_lt.mpr clamped

/-- **Negative sizes.** The size of a font that is accepted is negative in no other case than that a negative size is
written for a plain font and kept. -/
theorem size_neg_iff_written {usual : Rat} (nonneg : 0 ≤ usual) {type : ValueType} {raw : List Char} {F : Font Rat}
    (accepted : parse usual type raw = .ok F) :
    (∃ (e : Expression Rat) (ws : List Word), Lexer.Consists raw ws ∧ Written e ws) ∧
      ∀ (e : Expression Rat) (ws : List Word), Lexer.Consists raw ws → Written e ws → (F.size < 0 ↔ ∃ n, e.sizeWritten? = some n ∧ n < 0) := by
  constructor
  · obtain ⟨e, ws, consists, written, -⟩ := parse_eq_ok_iff.mp accepted
    exact ⟨e, ws, consists, written⟩
  · intro e ws consists written
    have same := accepted.symm.trans (parse_eq_ok_iff.mpr ⟨e, ws, consists, written, rfl⟩)
    rw [Except.ok.inj same]
    exact e.size_neg_iff nonneg

theorem size_neg_iff_written_scaled :
    (0 : Rat) ≤ 17 ∧
      parse (17 : Rat) .font "scaledFont(Helvetica -12)".toList = .ok ⟨.family "Helvetica", -12, some .body⟩ ∧
      (∃ (e : Expression Rat) (ws : List Word), Lexer.Consists "scaledFont(Helvetica -12)".toList ws ∧ Written e ws ∧
        ∃ n, e.sizeWritten? = some n ∧ n < 0) ∧
      parse (17 : Rat) .font "fontWithSize(Helvetica, -12)".toList = .ok ⟨.family "Helvetica", 0, none⟩ ∧
      ∃ (e : Expression Rat) (ws : List Word), Lexer.Consists "fontWithSize(Helvetica, -12)".toList ws ∧ Written e ws ∧
        ¬∃ n, e.sizeWritten? = some n ∧ n < 0 := by
  have nonneg : (0 : Rat) ≤ 17 := by decide +kernel
  have scaled : parse (17 : Rat) .font "scaledFont(Helvetica -12)".toList =
      .ok ⟨.family "Helvetica", -12, some .body⟩ := by decide +kernel
  have clamped : parse (17 : Rat) .font "fontWithSize(Helvetica, -12)".toList =
      .ok ⟨.family "Helvetica", 0, none⟩ := by decide +kernel
  obtain ⟨⟨e, ws, consists, written⟩, negative⟩ := size_neg_iff_written nonneg scaled
  obtain ⟨⟨e', ws', consists', written'⟩, negative'⟩ := size_neg_iff_written nonneg clamped
  refine ⟨nonneg, scaled, ⟨e, ws, consists, written, ?_⟩, clamped, e', ws', consists', written', ?_⟩
  · exact (negative e ws consists written).mp (by decide +kernel)
  · intro below
    exact absurd ((negative' e' ws' consists' written').mpr below) (by decide +kernel)

/-- A plain font keeps the sign of the number that is written for its size. -/
theorem size_neg_of_plain :
    (0 : Rat) ≤ 17 ∧ parse (17 : Rat) .font "Helvetica -12".toList = .ok ⟨.family "Helvetica", -12, none⟩ ∧
      ¬0 ≤ (⟨.family "Helvetica", -12, none⟩ : Font Rat).size := by
  refine ⟨?_, ?_, ?_⟩ <;> decide +kernel

end Font

end Stylebook
