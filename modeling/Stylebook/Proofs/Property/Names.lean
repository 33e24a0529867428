import Stylebook.Content.Basic
import Stylebook.Property.Basic
import Stylebook.Proofs.Text.Lowercase

/-!
# Names of properties, compared in two ways

A rule finds a declaration under a name that agrees with it but for dashes and the case of ASCII letters. A property is
meant by a name that agrees with its own but for dashes and case, in every script. The second comparison is the first
with lower case on top (`normalizeName_eq`), so what a rule finds is always meant.

The converse holds where lower case has nothing left to do: for names whose only capitals are ASCII letters
(`AsciiCapitals`). No other name can be let in: with itself in lower case it is compared in one way and not in the other
(`foldPropertyName_normalizeName_ne`). Declarations in ASCII are a case of their own, since only the kelvin sign is
brought to an ASCII letter from outside.
-/

set_option autoImplicit false

namespace Stylebook

/-- Beyond ASCII, the name is in lower case. -/
def AsciiCapitals (name : String) : Prop :=
  ∀ c ∈ name.toList, 128 ≤ c.toNat → Text.lowerChar c = [c]

-- given by hand, since an instance that is found may go through all characters there are
instance (name : String) : Decidable (AsciiCapitals name) :=
  List.decidableBAll (fun c : Char => 128 ≤ c.toNat → Text.lowerChar c = [c]) name.toList

/-! ## Each comparison by itself -/

theorem sameProperty_iff (a b : String) : sameProperty a b = true ↔ foldPropertyName a = foldPropertyName b :=
  beq_iff_eq

theorem Rule.declaration?_single (selectors : List Selector) (d : Declaration) (name : String) :
    (⟨selectors, [d]⟩ : Rule).declaration? name = some d ↔ foldPropertyName d.property = foldPropertyName name := by
  rw [← sameProperty_iff]
  simp [Rule.declaration?]

/-- What is left of a name for one comparison is brought to lower case for the other. -/
theorem normalizeName_eq (name : String) :
    normalizeName name = String.ofList ((foldPropertyName name).flatMap Text.lowerChar) := by
  simp only [normalizeName, foldPropertyName, List.flatMap_map, Text.lowerChar_toLower]

theorem Property.matchesName_iff {α κ : Type} (p : Property α κ) (name : String) :
    p.matchesName name = true ↔
      (foldPropertyName name).flatMap Text.lowerChar = (foldPropertyName p.name).flatMap Text.lowerChar := by
  rw [matchesName, beq_iff_eq, normalizeName_eq, normalizeName_eq, String.ofList_inj]

/-! ## Names in lower case -/

theorem flatMap_lowerChar_eq_self {cs : List Char} (small : ∀ c ∈ cs, Text.lowerChar c = [c]) :
    cs.flatMap Text.lowerChar = cs := by
  induction cs with
  | nil => rfl
  | cons c cs ih =>
    obtain ⟨here, later⟩ := List.forall_mem_cons.mp small
    rw [List.flatMap_cons, here, ih later]
    rfl

/-- A character of a name as it is compared by rules. -/
theorem mem_foldPropertyName {name : String} {d : Char} :
    d ∈ foldPropertyName name ↔ ∃ c ∈ name.toList, c ≠ '-' ∧ c.toLower = d := by
  simp [foldPropertyName, and_assoc]

theorem asciiCapitals_of_ascii {name : String} (ascii : ∀ c ∈ name.toList, c.toNat < 128) : AsciiCapitals name :=
  fun c hc beyond => absurd (ascii c hc) (Nat.not_lt.mpr beyond)

theorem AsciiCapitals.flatMap_lowerChar {name : String} (capitals : AsciiCapitals name) :
    (foldPropertyName name).flatMap Text.lowerChar = foldPropertyName name := by
  apply flatMap_lowerChar_eq_self
  intro d hd
  obtain ⟨c, hc, -, rfl⟩ := mem_foldPropertyName.mp hd
  rw [Text.lowerChar_toLower]
  by_cases ascii : c.toNat < 128
  · rw [Text.lowerChar_of_ascii ascii]
  · have beyond : 128 ≤ c.toNat := Nat.not_lt.mp ascii
    rw [capitals c hc beyond, Text.toLower_of_above (by omega)]

/-- No dash comes from bringing another character to lower case. -/
theorem ne_dash_of_mem_lowerChar {c d : Char} (plain : c ≠ '-') (small : d ∈ Text.lowerChar c) : d ≠ '-' := by
  by_cases ascii : c.toNat < 128
  · have all : ∀ n < 128, Char.ofNat n ≠ '-' → '-' ∉ Text.lowerChar (Char.ofNat n) := by decide +kernel
    rintro rfl
    exact Text.of_ascii (P := fun c => c ≠ '-' → '-' ∉ Text.lowerChar c) all ascii plain small
  · rcases Text.mem_lowerChar_beyond (Nat.not_lt.mp ascii) small with beyond | ⟨-, rfl⟩ | ⟨-, rfl⟩
    · rintro rfl
      exact absurd beyond (by decide)
    · decide
    · decide

theorem lowerChar_of_mem_normalizeName {name : String} {d : Char} (mem : d ∈ (normalizeName name).toList) :
    d ≠ '-' ∧ Text.lowerChar d = [d] := by
  rw [normalizeName, String.toList_ofList] at mem
  obtain ⟨c, hc, small⟩ := List.mem_flatMap.mp mem
  have plain : c ≠ '-' := by simpa using (List.mem_filter.mp hc).2
  exact ⟨ne_dash_of_mem_lowerChar plain small, Text.lowerChar_of_mem small⟩

/-- A name in lower case without dashes is compared as it is. -/
theorem foldPropertyName_normalizeName (name : String) :
    foldPropertyName (normalizeName name) = (normalizeName name).toList := by
  have plain : ∀ d ∈ (normalizeName name).toList, decide (d ≠ '-') = true := by
    intro d mem
    exact decide_eq_true (lowerChar_of_mem_normalizeName mem).1
  rw [foldPropertyName, List.filter_eq_self.mpr plain]
  refine (List.map_congr_left fun d mem => ?_).trans (List.map_id _)
  exact Text.toLower_of_lowerChar (lowerChar_of_mem_normalizeName mem).2

/-- A name means the same in lower case. -/
theorem flatMap_normalizeName (name : String) :
    (foldPropertyName (normalizeName name)).flatMap Text.lowerChar = (foldPropertyName name).flatMap Text.lowerChar := by
  rw [foldPropertyName_normalizeName, flatMap_lowerChar_eq_self fun d mem => (lowerChar_of_mem_normalizeName mem).2,
    normalizeName_eq, String.toList_ofList]

/-- A name with a capital beyond ASCII is not found in lower case. -/
theorem foldPropertyName_normalizeName_ne {name : String} (other : ¬AsciiCapitals name) :
    foldPropertyName (normalizeName name) ≠ foldPropertyName name := by
  simp only [AsciiCapitals, Classical.not_forall] at other
  obtain ⟨c, hc, beyond, capital⟩ := other
  have kept : c ∈ foldPropertyName name := by
    refine mem_foldPropertyName.mpr ⟨c, hc, ?_, Text.toLower_of_above (by omega)⟩
    rintro rfl
    exact absurd beyond (by decide)
  intro same
  rw [← same, foldPropertyName_normalizeName] at kept
  exact capital (lowerChar_of_mem_normalizeName kept).2

/-- What is meant by a name in ASCII is in ASCII itself, if it has no kelvin sign. -/
theorem ascii_of_meant {d p : String} (ascii : ∀ c ∈ d.toList, c.toNat < 128) (kelvin : '\u212A' ∉ p.toList)
    (meant : (foldPropertyName d).flatMap Text.lowerChar = (foldPropertyName p).flatMap Text.lowerChar) :
    ∀ c ∈ p.toList, c.toNat < 128 := by
  have within : ∀ e ∈ (foldPropertyName d).flatMap Text.lowerChar, e.toNat < 128 := by
    intro e he
    obtain ⟨c', hc', small⟩ := List.mem_flatMap.mp he
    obtain ⟨c, hc, -, rfl⟩ := mem_foldPropertyName.mp hc'
    rw [Text.lowerChar_toLower, Text.lowerChar_of_ascii (ascii c hc)] at small
    rw [List.mem_singleton.mp small]
    exact (Text.toLower_ascii (ascii c hc)).1
  intro c hc
  refine Nat.lt_of_not_le fun beyond => ?_
  have other : c ≠ '\u212A' := ne_of_mem_of_not_mem hc kelvin
  have kept : c ∈ foldPropertyName p := by
    refine mem_foldPropertyName.mpr ⟨c, hc, ?_, Text.toLower_of_above (by omega)⟩
    rintro rfl
    exact absurd beyond (by decide)
  obtain ⟨e, small, wide'⟩ := Text.exists_mem_lowerChar_beyond beyond other
  have inside := within e (meant ▸ List.mem_flatMap.mpr ⟨c, kept, small⟩)
  omega

/-! ## The two comparisons -/

/-- Names that are compared by what is left of them are compared by an equivalence relation. -/
theorem equivalence_of_iff {R : String → String → Prop} {left : String → List Char}
    (same : ∀ d p, R d p ↔ left d = left p) : Equivalence R where
  refl d := (same d d).mpr rfl
  symm {d p} h := (same p d).mpr ((same d p).mp h).symm
  trans {d p q} h h' := (same d q).mpr (((same d p).mp h).trans ((same p q).mp h'))

/-- **Two comparisons of names.** Both are equivalence relations. What a rule finds under a name is always meant by it.
The two agree on names whose only capitals are ASCII letters, and any other name means a declaration of such a name
that is not found under it. They agree as well on declarations in ASCII and names without the kelvin sign. -/
theorem found_iff_meant {α κ : Type} (property : Property α κ) (selectors : List Selector) (value : String) :
    let found (d p : String) : Prop := (⟨selectors, [⟨d, value⟩]⟩ : Rule).declaration? p = some ⟨d, value⟩
    let meant (d p : String) : Prop := ({ property with name := p } : Property α κ).matchesName d = true
    Equivalence found ∧ Equivalence meant ∧
    (∀ d p, found d p → meant d p) ∧
    (∀ d p, AsciiCapitals d → AsciiCapitals p → (found d p ↔ meant d p)) ∧
    (∀ d p, (∀ c ∈ d.toList, c.toNat < 128) → '\u212A' ∉ p.toList → (found d p ↔ meant d p)) ∧
    ∀ p, ¬AsciiCapitals p → ∃ d, AsciiCapitals d ∧ meant d p ∧ ¬found d p := by
  intro found meant
  have finds (d p : String) : found d p ↔ foldPropertyName d = foldPropertyName p :=
    Rule.declaration?_single selectors ⟨d, value⟩ p
  have means (d p : String) : meant d p ↔
      (foldPropertyName d).flatMap Text.lowerChar = (foldPropertyName p).flatMap Text.lowerChar :=
    Property.matchesName_iff { property with name := p } d
  have agree (d p : String) (capitals : AsciiCapitals d) (capitals' : AsciiCapitals p) : found d p ↔ meant d p := by
    rw [finds, means, capitals.flatMap_lowerChar, capitals'.flatMap_lowerChar]
  have always (d p : String) (h : found d p) : meant d p := by
    rw [means, (finds d p).mp h]
  refine ⟨equivalence_of_iff finds, equivalence_of_iff means, always, agree,
    fun d p ascii kelvin => ⟨always d p, fun h => ?_⟩, fun p other => ?_⟩
  · have ascii' := ascii_of_meant ascii kelvin ((means d p).mp h)
    exact (agree d p (asciiCapitals_of_ascii ascii) (asciiCapitals_of_ascii ascii')).mpr h
  · refine ⟨normalizeName p, ?_, (means _ p).mpr (flatMap_normalizeName p), fun h => ?_⟩
    · exact fun d mem _ => (lowerChar_of_mem_normalizeName mem).2
    · exact foldPropertyName_normalizeName_ne other ((finds _ p).mp h)

/-- Names with dashes and capitals, in ASCII and beyond. -/
theorem found_iff_meant_dashed :
    let property : Property Rat Unit := .plain "" .number "Label"
    let found (d p : String) : Prop := (⟨[], [⟨d, "1"⟩]⟩ : Rule).declaration? p = some ⟨d, "1"⟩
    let meant (d p : String) : Prop := ({ property with name := p } : Property Rat Unit).matchesName d = true
    (found "ÉTAT-initial" "Étatinitial" ∧ meant "ÉTAT-initial" "Étatinitial") ∧
      (AsciiCapitals "Content-größe" ∧ AsciiCapitals "contentGröße" ∧ meant "Content-größe" "contentGröße") ∧
      (¬meant "content-k" "contentÅ" ∧ ¬found "content-k" "contentÅ") ∧
      ¬AsciiCapitals "Größe-\u212A" ∧ ∃ d, meant d "Größe-\u212A" ∧ ¬found d "Größe-\u212A" := by
  intro property found meant
  obtain ⟨-, -, always, agree, inAscii, others⟩ := found_iff_meant property [] "1"
  have kept : found "ÉTAT-initial" "Étatinitial" := by decide +kernel
  have small : AsciiCapitals "Content-größe" := by decide +kernel
  have small' : AsciiCapitals "contentGröße" := by decide +kernel
  have here : found "Content-größe" "contentGröße" := by decide +kernel
  have apart : ¬meant "content-k" "contentÅ" := by decide +kernel
  have other : ¬AsciiCapitals "Größe-\u212A" := by decide +kernel
  refine ⟨⟨kept, always _ _ kept⟩, ⟨small, small', (agree _ _ small small').mp here⟩, ⟨apart, fun h => ?_⟩, other, ?_⟩
  · have ascii : ∀ c ∈ "content-k".toList, c.toNat < 128 := by simp
    exact apart ((inAscii "content-k" "contentÅ" ascii (by decide)).mp h)
  · obtain ⟨d, -, h⟩ := others _ other
    exact ⟨d, h⟩

/-- A property named by the kelvin sign is meant by `k`, but a rule does not find a declaration of `k` under that name,
since the sign is no ASCII letter. -/
theorem found_iff_meant_kelvin :
    (Property.plain "\u212A" .number "Label" : Property Rat Unit).matchesName "k" = true ∧
      (⟨[], [⟨"k", "1"⟩]⟩ : Rule).declaration? "\u212A" = none := by
  decide +kernel

end Stylebook
