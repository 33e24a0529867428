import Stylebook.Text.Lowercase

/-!
# Lower case, twice and in any case of ASCII letters

Lower case has nothing to change in a text that is in lower case (`lower_lower`). That is a fact about the table: no run
of capitals may hold the small letter of another capital (`caseRun?_small`). Runs are given by their ends, so this is
decided for pairs of runs and not letter by letter.

From it follows what comparing in lower case means for ASCII letters: a text that is in lower case comes out of any text
that differs from it in the case of ASCII letters only (`lower_of_sameIgnoringCase`).
-/

set_option autoImplicit false

namespace Stylebook.Text

/-! ## ASCII letters -/

theorem of_ascii {P : Char → Prop} (all : ∀ n < 128, P (Char.ofNat n)) {c : Char} (ascii : c.toNat < 128) : P c := by
  have here := all c.toNat ascii
  rwa [Char.ofNat_toNat] at here

/-- Only the letters `A` to `Z` have another small letter in ASCII. -/
theorem toLower_of_above {c : Char} (above : 90 < c.toNat) : c.toLower = c := by
  unfold Char.toLower
  apply dif_neg
  rintro ⟨-, last⟩
  have small : c.toNat ≤ 90 := last
  omega

theorem toLower_ascii {c : Char} (ascii : c.toNat < 128) : c.toLower.toNat < 128 ∧ c.toLower.toLower = c.toLower := by
  have all : ∀ n < 128, (Char.ofNat n).toLower.toNat < 128 ∧
      (Char.ofNat n).toLower.toLower = (Char.ofNat n).toLower := by decide +kernel
  exact of_ascii (P := fun c => c.toLower.toNat < 128 ∧ c.toLower.toLower = c.toLower) all ascii

theorem lowerChar_of_ascii {c : Char} (ascii : c.toNat < 128) : lowerChar c = [c.toLower] :=
  if_pos ascii

/-- Lower case does not see the case of an ASCII letter. -/
theorem lowerChar_toLower (c : Char) : lowerChar c.toLower = lowerChar c := by
  by_cases ascii : c.toNat < 128
  · obtain ⟨ascii', again⟩ := toLower_ascii ascii
    rw [lowerChar_of_ascii ascii, lowerChar_of_ascii ascii', again]
  · rw [toLower_of_above (by omega)]

/-! ## Capitals and small letters of the table -/

/-- The small letter of the first capital of the run. -/
def CaseRun.target (r : CaseRun) : Nat :=
  (r.first + r.shift).toNat

/-- The small letter of the last capital of the run. -/
def CaseRun.targetEnd (r : CaseRun) : Nat :=
  r.target + (r.last - r.first)

/-- Whether no small letter of `r` is a capital of `s`: the two lie apart, or take turns. -/
def CaseRun.misses (r s : CaseRun) : Bool :=
  Nat.blt r.targetEnd s.first || Nat.blt s.last r.target ||
    (Nat.beq r.step 2 || Nat.beq r.first r.last) && Nat.beq s.step 2 && Nat.beq ((r.target + s.first) % 2) 1

/-- Whether the small letters of the run are characters, none of them is an ASCII capital, and none is the dotted
capital I. -/
def CaseRun.sane (r : CaseRun) : Bool :=
  Nat.blt 90 r.target && (Nat.blt r.targetEnd 0x130 || Nat.blt 0x130 r.target) &&
    (Nat.blt r.targetEnd 0xD800 || Nat.blt 0xDFFF r.target && Nat.blt r.targetEnd 0x110000)

theorem caseRuns_sane : ∀ r ∈ caseRuns, r.sane = true := by
  have all : (caseRuns.all fun r => r.sane) = true := by decide +kernel
  intro r hr
  exact List.all_eq_true.mp all r hr

/-- All small letters of the table but one lie beyond ASCII: the kelvin sign has the letter `k`. -/
theorem caseRuns_beyond : ∀ r ∈ caseRuns, 128 ≤ r.target ∨ r.first = 0x212A ∧ r.last = 0x212A ∧ r.target = 107 := by
  decide +kernel

/-- **No small letter of the table is a capital.** -/
theorem caseRuns_misses : ∀ r ∈ caseRuns, ∀ s ∈ caseRuns, r.misses s = true := by
  have all : (caseRuns.all fun r => caseRuns.all fun s => r.misses s) = true := by decide +kernel
  intro r hr s hs
  exact List.all_eq_true.mp (List.all_eq_true.mp all r hr) s hs

theorem mem_caseRun? {n : Nat} {r : CaseRun} (h : caseRun? n = some r) :
    r ∈ caseRuns ∧ r.first ≤ n ∧ n ≤ r.last ∧ (n - r.first) % r.step = 0 := by
  have within := List.find?_some h
  simp only [Bool.and_eq_true, decide_eq_true_eq, beq_iff_eq] at within
  exact ⟨List.mem_of_find?_eq_some h, within.1.1, within.1.2, within.2⟩

/-- Where the small letter of a capital lies. -/
theorem target_of_caseRun? {n : Nat} {r : CaseRun} (h : caseRun? n = some r) :
    (n + r.shift).toNat = r.target + (n - r.first) ∧ (n + r.shift).toNat ≤ r.targetEnd := by
  obtain ⟨mem, first, last, -⟩ := mem_caseRun? h
  have sane := caseRuns_sane r mem
  simp only [CaseRun.sane, Bool.and_eq_true, Nat.blt_eq] at sane
  have above := sane.1.1
  unfold CaseRun.targetEnd
  unfold CaseRun.target at above ⊢
  omega

/-- The small letter of a capital is no capital. -/
theorem caseRun?_small {n : Nat} {r : CaseRun} (h : caseRun? n = some r) : caseRun? (n + r.shift).toNat = none := by
  obtain ⟨place, inside⟩ := target_of_caseRun? h
  obtain ⟨mem, first, last, turn⟩ := mem_caseRun? h
  cases again : caseRun? (n + r.shift).toNat with
  | none => rfl
  | some s =>
    exfalso
    obtain ⟨mem', first', last', turn'⟩ := mem_caseRun? again
    have misses := caseRuns_misses r mem s mem'
    simp only [CaseRun.misses, Bool.or_eq_true, Bool.and_eq_true, Nat.blt_eq, Nat.beq_eq] at misses
    rcases misses with (below | above) | ⟨⟨step, two⟩, odd⟩
    · omega
    · omega
    · -- the capitals of `s` have one parity, and the small letters of `r` have the other
      rw [two] at turn'
      rcases step with step | single
      · rw [step] at turn
        omega
      · omega

/-! ## Characters in lower case -/

theorem toNat_ofNat_of_isValidChar {n : Nat} (valid : n.isValidChar) : (Char.ofNat n).toNat = n := by
  unfold Char.ofNat
  rw [dif_pos valid]
  rfl

/-- The small letter of a capital of the table is a character. -/
theorem toNat_small {n : Nat} {r : CaseRun} (capital : caseRun? n = some r) :
    (Char.ofNat (n + r.shift).toNat).toNat = (n + r.shift).toNat := by
  obtain ⟨place, inside⟩ := target_of_caseRun? capital
  have sane := caseRuns_sane r (mem_caseRun? capital).1
  simp only [CaseRun.sane, Bool.and_eq_true, Bool.or_eq_true, Nat.blt_eq] at sane
  apply toNat_ofNat_of_isValidChar
  unfold Nat.isValidChar
  omega

/-- The small letter of a capital of the table is in lower case. -/
theorem lowerChar_small {n : Nat} {r : CaseRun} (capital : caseRun? n = some r) :
    lowerChar (Char.ofNat (n + r.shift).toNat) = [Char.ofNat (n + r.shift).toNat] := by
  have none := caseRun?_small capital
  have number := toNat_small capital
  obtain ⟨place, inside⟩ := target_of_caseRun? capital
  have sane := caseRuns_sane r (mem_caseRun? capital).1
  simp only [CaseRun.sane, Bool.and_eq_true, Bool.or_eq_true, Nat.blt_eq] at sane
  obtain ⟨⟨above, dotted⟩, -⟩ := sane
  generalize (n + r.shift).toNat = m at none number place inside ⊢
  unfold lowerChar
  rw [number, toLower_of_above (by omega), if_neg (show m ≠ 0x130 by omega), none]
  split <;> rfl

/-- Lower case of a character is in lower case. -/
theorem lowerChar_of_mem {c d : Char} (small : d ∈ lowerChar c) : lowerChar d = [d] := by
  unfold lowerChar at small
  split at small
  · rename_i ascii
    rw [List.mem_singleton.mp small, lowerChar_toLower, lowerChar_of_ascii ascii]
  · rename_i wide
    split at small
    · -- the dotted capital becomes a letter and a mark
      rw [List.mem_cons, List.mem_singleton] at small
      rcases small with rfl | rfl <;> rfl
    · rename_i undotted
      split at small
      · rename_i r capital
        rw [List.mem_singleton.mp small]
        exact lowerChar_small capital
      · rename_i none
        rw [List.mem_singleton.mp small]
        unfold lowerChar
        rw [if_neg wide, if_neg undotted, none]

theorem toLower_of_lowerChar {d : Char} (small : lowerChar d = [d]) : d.toLower = d := by
  by_cases ascii : d.toNat < 128
  · rw [lowerChar_of_ascii ascii] at small
    exact List.singleton_inj.mp small
  · exact toLower_of_above (by omega)

/-- A character is brought to lower case from any case of its ASCII letter. -/
theorem lowerChar_of_toLower {c d : Char} (small : lowerChar d = [d]) (same : c.toLower = d.toLower) :
    c ≠ 'Σ' ∧ lowerChar c = [d] := by
  rw [toLower_of_lowerChar small] at same
  by_cases ascii : c.toNat < 128
  · refine ⟨?_, ?_⟩
    · rintro rfl
      exact absurd ascii (by decide)
    · rw [lowerChar_of_ascii ascii, same]
  · obtain rfl : c = d := by rw [← same, toLower_of_above (by omega)]
    refine ⟨?_, small⟩
    rintro rfl
    exact absurd small (by decide)

/-- Two characters beyond ASCII have an ASCII letter in their lower case: the kelvin sign and the dotted capital I. -/
theorem mem_lowerChar_beyond {c d : Char} (beyond : 128 ≤ c.toNat) (small : d ∈ lowerChar c) :
    128 ≤ d.toNat ∨ c = '\u212A' ∧ d = 'k' ∨ c = 'İ' ∧ d = 'i' := by
  unfold lowerChar at small
  rw [if_neg (Nat.not_lt.mpr beyond)] at small
  split at small
  · rename_i dotted
    have here : c = 'İ' := by rw [← Char.ofNat_toNat c, dotted]
    rw [List.mem_cons, List.mem_singleton] at small
    rcases small with rfl | rfl
    · exact .inr (.inr ⟨here, rfl⟩)
    · exact .inl (by decide)
  · split at small
    · rename_i r capital
      obtain ⟨mem, first, last, -⟩ := mem_caseRun? capital
      obtain ⟨place, -⟩ := target_of_caseRun? capital
      rw [List.mem_singleton.mp small]
      rcases caseRuns_beyond r mem with wide | ⟨kelvin, kelvin', letter⟩
      · rw [toNat_small capital]
        omega
      · have here : c.toNat = 0x212A := by omega
        have there : (c.toNat + r.shift).toNat = 107 := by omega
        refine .inr (.inl ⟨?_, ?_⟩)
        · rw [← Char.ofNat_toNat c, here]
        · rw [there]
    · rw [List.mem_singleton.mp small]
      exact .inl beyond

/-- The kelvin sign is the only character beyond ASCII whose lower case is all in ASCII. -/
theorem exists_mem_lowerChar_beyond {c : Char} (beyond : 128 ≤ c.toNat) (kelvin : c ≠ '\u212A') :
    ∃ d ∈ lowerChar c, 128 ≤ d.toNat := by
  have nonempty : lowerChar c ≠ [] := by
    unfold lowerChar
    repeat' split
    all_goals exact List.cons_ne_nil _ _
  obtain ⟨d, ds, whole⟩ := List.exists_cons_of_ne_nil nonempty
  have small : d ∈ lowerChar c := whole ▸ List.mem_cons_self
  rcases mem_lowerChar_beyond beyond small with wide | ⟨sign, -⟩ | ⟨rfl, -⟩
  · exact ⟨d, small, wide⟩
  · exact absurd sign kelvin
  · -- the dot of the dotted capital I stays
    exact ⟨'\u0307', by decide, by decide⟩

/-! ## Texts in lower case -/

theorem lowerChar_of_mem_lowerAfter {before cs : List Char} {d : Char} (small : d ∈ lowerAfter before cs) :
    lowerChar d = [d] := by
  induction cs generalizing before with
  | nil => cases small
  | cons c cs ih =>
    rw [lowerAfter] at small
    rcases List.mem_append.mp small with here | behind
    · split at here
      · rw [List.mem_singleton.mp here]
        split <;> rfl
      · exact lowerChar_of_mem here
    · exact ih behind

/-- What is in lower case comes out of every text that differs from it in the case of ASCII letters only. -/
theorem lowerAfter_of_asciiLower {w k : List Char} (small : ∀ d ∈ k, lowerChar d = [d])
    (same : asciiLower w = asciiLower k) (before : List Char) : lowerAfter before w = k := by
  induction w generalizing k before with
  | nil =>
    cases k with
    | nil => rfl
    | cons d k => cases same
  | cons c w ih =>
    cases k with
    | nil => cases same
    | cons d k =>
      obtain ⟨here, later⟩ := List.cons.inj same
      obtain ⟨sigma, first⟩ := lowerChar_of_toLower (small d List.mem_cons_self) here
      have behind := ih (fun x hx => small x (List.mem_cons_of_mem d hx)) later (c :: before)
      rw [lowerAfter, if_neg sigma, first, behind]
      rfl

theorem lower_of_sameIgnoringCase {w cs : List Char} (same : sameIgnoringCase w (lower cs) = true) :
    lower w = lower cs := by
  apply lowerAfter_of_asciiLower
  · intro d small
    exact lowerChar_of_mem_lowerAfter small
  · exact beq_iff_eq.mp same

/-- Lower case twice is lower case. -/
theorem lower_lower (cs : List Char) : lower (lower cs) = lower cs := by
  apply lower_of_sameIgnoringCase
  exact beq_self_eq_true _

end Stylebook.Text
