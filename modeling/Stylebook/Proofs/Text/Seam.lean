import Mathlib.Data.List.Induction
import Stylebook.Text.Lowercase

/-!
# Lower case across a seam

Lower case goes character by character, but for the capital sigma, whose small form depends on the characters around
it. So when two texts are put together, all that can change at the seam is the form of a sigma: of the one that the
first text ends in, if it is final there and a letter comes behind it now (`lowerBetween_behind_iff`), and of the one
that the second text starts with, if a letter comes in front of it now and none stands behind
(`lowerAfter_before_iff`). Everything else is the lower case of the parts, one after the other (`lower_append_iff`).

Case-ignorable characters do not count: a sigma *leads* a text if only such characters stand in front of it, and a text
ends in a sigma if one leads the reversed text.
-/

set_option autoImplicit false

namespace Stylebook.Text

/-! ## Between two texts -/

/-- Lower case of a text between others, where `before` is what precedes it, last character first. -/
def lowerBetween (before : List Char) : List Char → List Char → List Char
  | [], _ => []
  | c :: cs, behind =>
    let small :=
      if c = 'Σ' then [if startsCased before && !startsCased (cs ++ behind) then 'ς' else 'σ'] else lowerChar c
    small ++ lowerBetween (c :: before) cs behind

/-- A capital sigma leads the text, and what comes next but for case-ignorable characters is cased, or is not. -/
def sigmaLeads (cased : Bool) (cs : List Char) : Bool :=
  match cs.dropWhile isCaseIgnorable with
  | [] => false
  | c :: rest => c == 'Σ' && startsCased rest == cased

/-- No sigma changes its form when the two texts are put together. -/
def seamless (front back : List Char) : Bool :=
  !(sigmaLeads true front.reverse && startsCased back) && !(startsCased front.reverse && sigmaLeads false back)

theorem startsCased_cons (c : Char) (cs : List Char) :
    startsCased (c :: cs) = if isCaseIgnorable c then startsCased cs else isCased c := by
  cases ignorable : isCaseIgnorable c <;> simp [startsCased, ignorable]

theorem sigmaLeads_cons (cased : Bool) (c : Char) (cs : List Char) :
    sigmaLeads cased (c :: cs) =
      if isCaseIgnorable c then sigmaLeads cased cs else c == 'Σ' && startsCased cs == cased := by
  cases ignorable : isCaseIgnorable c <;> simp [sigmaLeads, ignorable]

/-- Whether a character comes first that is cased depends on the text behind only if all is case-ignorable. -/
theorem startsCased_append_congr {behind behind' : List Char} (same : startsCased behind = startsCased behind')
    (cs : List Char) : startsCased (cs ++ behind) = startsCased (cs ++ behind') := by
  induction cs with
  | nil => exact same
  | cons c cs ih => rw [List.cons_append, List.cons_append, startsCased_cons, startsCased_cons, ih]

theorem lowerBetween_nil (before cs : List Char) : lowerBetween before cs [] = lowerAfter before cs := by
  induction cs generalizing before with
  | nil => rfl
  | cons c cs ih => rw [lowerBetween, lowerAfter, ih, List.append_nil]

theorem lowerBetween_append (before cs ds behind : List Char) :
    lowerBetween before (cs ++ ds) behind =
      lowerBetween before cs (ds ++ behind) ++ lowerBetween (cs.reverse ++ before) ds behind := by
  induction cs generalizing before with
  | nil => rfl
  | cons c cs ih => simp [lowerBetween, ih]

theorem lower_append (front back : List Char) :
    lower (front ++ back) = lowerBetween [] front back ++ lowerAfter front.reverse back := by
  rw [lower, ← lowerBetween_nil, lowerBetween_append, lowerBetween_nil, List.append_nil, List.append_nil]

/-- Of the texts around, it counts only what comes first that is not case-ignorable. -/
theorem lowerBetween_congr {before before' behind behind' : List Char}
    (front : startsCased before = startsCased before') (back : startsCased behind = startsCased behind')
    (cs : List Char) : lowerBetween before cs behind = lowerBetween before' cs behind' := by
  induction cs generalizing before before' with
  | nil => rfl
  | cons c cs ih =>
    have next : startsCased (c :: before) = startsCased (c :: before') := by
      rw [startsCased_cons, startsCased_cons, front]
    rw [lowerBetween, lowerBetween, front, startsCased_append_congr back cs, ih next]

/-- The texts around do not change the length. -/
theorem length_lowerBetween (before before' behind behind' cs : List Char) :
    (lowerBetween before cs behind).length = (lowerBetween before' cs behind').length := by
  induction cs generalizing before before' with
  | nil => rfl
  | cons c cs ih =>
    rw [lowerBetween, lowerBetween, List.length_append, List.length_append, ih (c :: before) (c :: before')]
    congr 1
    split <;> rfl

/-! ## What changes at the seam -/

theorem not_isCaseIgnorable_sigma : isCaseIgnorable 'Σ' = false := by decide +kernel

theorem ne_sigma_of_isCaseIgnorable {c : Char} (ignorable : isCaseIgnorable c = true) : c ≠ 'Σ' := by
  rintro rfl
  rw [not_isCaseIgnorable_sigma] at ignorable
  cases ignorable

/-- A letter behind a text changes its lower case exactly if the text ends in a sigma with a letter in front. By
induction from the end, since that is where the text behind makes a difference. -/
theorem lowerBetween_behind_iff {cs behind nothing : List Char} (cased : startsCased behind = true)
    (uncased : startsCased nothing = false) :
    lowerBetween [] cs behind = lowerBetween [] cs nothing ↔ sigmaLeads true cs.reverse = false := by
  induction cs using List.reverseRecOn generalizing behind nothing with
  | nil => exact iff_of_true rfl rfl
  | append_singleton cs c ih =>
    rw [lowerBetween_append, lowerBetween_append, List.reverse_append, List.reverse_singleton, List.singleton_append,
      List.singleton_append, List.singleton_append, sigmaLeads_cons]
    cases ignorable : isCaseIgnorable c with
    | true =>
      -- such a character is no sigma, and lets the ones in front of it see what is behind
      have here : lowerBetween (cs.reverse ++ []) [c] behind = lowerBetween (cs.reverse ++ []) [c] nothing := by
        simp only [lowerBetween, if_neg (ne_sigma_of_isCaseIgnorable ignorable)]
      have cased' : startsCased (c :: behind) = true := by rw [startsCased_cons, if_pos ignorable, cased]
      have uncased' : startsCased (c :: nothing) = false := by rw [startsCased_cons, if_pos ignorable, uncased]
      rw [here, List.append_left_inj, if_pos rfl]
      exact ih cased' uncased'
    | false =>
      have front : lowerBetween [] cs (c :: behind) = lowerBetween [] cs (c :: nothing) := by
        apply lowerBetween_congr rfl
        rw [startsCased_cons, startsCased_cons, ignorable]
        rfl
      rw [front, List.append_right_inj, if_neg Bool.false_ne_true]
      by_cases sigma : c = 'Σ'
      · simp [lowerBetween, sigma, cased, uncased]
      · simp [lowerBetween, sigma]

/-- A letter in front of a text changes its lower case exactly if a sigma leads the text and no letter comes next. -/
theorem lowerAfter_before_iff {cs before nothing : List Char} (cased : startsCased before = true)
    (uncased : startsCased nothing = false) :
    lowerAfter before cs = lowerAfter nothing cs ↔ sigmaLeads false cs = false := by
  induction cs generalizing before nothing with
  | nil => exact iff_of_true rfl rfl
  | cons c cs ih =>
    rw [sigmaLeads_cons]
    cases ignorable : isCaseIgnorable c with
    | true =>
      have cased' : startsCased (c :: before) = true := by rw [startsCased_cons, if_pos ignorable, cased]
      have uncased' : startsCased (c :: nothing) = false := by rw [startsCased_cons, if_pos ignorable, uncased]
      rw [lowerAfter, lowerAfter, if_neg (ne_sigma_of_isCaseIgnorable ignorable),
        if_neg (ne_sigma_of_isCaseIgnorable ignorable), List.append_right_inj, if_pos rfl]
      exact ih cased' uncased'
    | false =>
      have back : lowerAfter (c :: before) cs = lowerAfter (c :: nothing) cs := by
        rw [← lowerBetween_nil, ← lowerBetween_nil]
        apply lowerBetween_congr _ rfl
        rw [startsCased_cons, startsCased_cons, ignorable]
        rfl
      rw [lowerAfter, lowerAfter, back, List.append_left_inj, if_neg Bool.false_ne_true]
      by_cases sigma : c = 'Σ'
      · simp [sigma, cased, uncased]
      · simp [sigma]

/-- The lower case of the first text is not changed by the second, unless a sigma at its end is. -/
theorem lowerBetween_eq_lower_iff (front back : List Char) :
    lowerBetween [] front back = lower front ↔ (sigmaLeads true front.reverse && startsCased back) = false := by
  rw [lower, ← lowerBetween_nil]
  cases cased : startsCased back with
  | true => rw [Bool.and_true, lowerBetween_behind_iff cased rfl]
  | false => exact iff_of_true (lowerBetween_congr rfl cased front) (Bool.and_false _)

/-- The lower case of the second text is not changed by the first, unless a sigma at its front is. -/
theorem lowerAfter_eq_lower_iff (front back : List Char) :
    lowerAfter front back = lower back ↔ (startsCased front && sigmaLeads false back) = false := by
  cases cased : startsCased front with
  | true => rw [Bool.true_and, lower, lowerAfter_before_iff cased rfl]
  | false =>
    refine iff_of_true ?_ (Bool.false_and _)
    rw [lower, ← lowerBetween_nil, ← lowerBetween_nil]
    exact lowerBetween_congr cased rfl back

/-- Texts that are put together have the lower case of the texts exactly if no sigma changes its form. -/
theorem lower_append_iff (front back : List Char) :
    lower (front ++ back) = lower front ++ lower back ↔ seamless front back = true := by
  have length : (lowerBetween [] front back).length = (lower front).length := by
    rw [lower, ← lowerBetween_nil]
    exact length_lowerBetween ..
  rw [lower_append, seamless, Bool.and_eq_true, Bool.not_eq_true', Bool.not_eq_true', ← lowerBetween_eq_lower_iff,
    ← lowerAfter_eq_lower_iff]
  constructor
  · intro same
    exact List.append_inj same length
  · rintro ⟨first, second⟩
    rw [first, second]

end Stylebook.Text
