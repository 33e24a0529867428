import Mathlib.Tactic.FieldSimp
import Stylebook.Proofs.Color.Wheel

/-!
# Hue, saturation and brightness

Over the rationals a colour is got back from its hue, saturation and brightness, as long as no channel is negative
(`ofHsb_toHsb`). The channels of the colour of a hue lie between its base and its brightness, and both ends are reached
(`extent_ofHsb`). So what an adjustment does to the brightest and the darkest channel is known whatever the hue, and
these two decide whether a colour has all its channels between zero and one (`inUnit_iff`).

All that is said of an adjustment is said of any colour, also of one with channels out of range; colours in range are
the case of interest in `hsb_exact`.
-/

set_option autoImplicit false

namespace Stylebook.Color

/-! ## Saturation and brightness -/

section Parts

variable (c : Color Rat)

theorem saturation_rat : c.toHsb.saturation = if 0 < c.brightest then c.spread / c.brightest else 0 := by
  simp only [toHsb, spread, Scalar.less_rat, Scalar.zero_rat, decide_eq_true_eq]

variable {c} in
/-- A colour without brightness is read as a grey. -/
theorem saturation_of_dim (dim : c.brightest ≤ 0) : c.toHsb.saturation = 0 := by
  rw [saturation_rat, if_neg (not_lt.mpr dim)]

@[simp] theorem brightness_toHsb : c.toHsb.brightness = c.brightest := rfl

theorem saturation_nonneg : 0 ≤ c.toHsb.saturation := by
  rw [saturation_rat]
  split
  · exact div_nonneg c.spread_nonneg (le_of_lt ‹_›)
  · exact le_rfl

theorem hue_mem : c.toHsb.hue ∈ Set.Ico 0 1 := by
  obtain ⟨r, g, b, wheel, -⟩ := c.places_hue
  obtain ⟨least, most⟩ := wheel.place
  constructor <;> linarith

end Parts

variable {c : Color Rat}

/-- The chroma of a colour is its spread. Where no channel is negative, black is the only colour without brightness. -/
theorem brightest_mul_saturation (nonneg : 0 ≤ c.darkest) : c.brightest * c.toHsb.saturation = c.spread := by
  have most := c.darkest_le_brightest
  rw [saturation_rat]
  split
  · exact mul_div_cancel₀ _ (ne_of_gt ‹_›)
  · rw [mul_zero, spread]
    linarith

theorem saturation_le_one (nonneg : 0 ≤ c.darkest) : c.toHsb.saturation ≤ 1 := by
  rw [saturation_rat]
  split
  · rw [div_le_one ‹_›, spread]
    linarith
  · exact zero_le_one

theorem ofHsb_toHsb (nonneg : 0 ≤ c.darkest) : ofHsb c.toHsb c.alpha = c := by
  obtain ⟨r, g, b, wheel, red, green, blue⟩ := c.places_hue
  have base : c.brightest - c.spread = c.darkest := sub_sub_cancel _ _
  rw [ofHsb_of_wheel wheel]
  simp only [brightness_toHsb, brightest_mul_saturation nonneg, base]
  rw [add_comm, ← red, add_comm, ← green, add_comm, ← blue]

/-! ## The extent of a colour -/

/-- The channels of a colour reach from its base to its brightness. -/
theorem extent_ofHsb {r g b : Rat} {v : Hsb Rat} (wheel : Wheel (6 * v.hue) r g b)
    (nonneg : 0 ≤ v.brightness * v.saturation) (alpha : Rat) :
    (ofHsb v alpha).brightest = v.brightness ∧
      (ofHsb v alpha).darkest = v.brightness - v.brightness * v.saturation := by
  rw [ofHsb_of_wheel wheel, brightest_rat, darkest_rat]
  generalize v.brightness * v.saturation = chroma at nonneg
  generalize 6 * v.hue = h at wheel
  have part {t : Rat} (least : 0 ≤ t) (most : t ≤ 1) : 0 ≤ chroma * t ∧ chroma * t ≤ chroma :=
    ⟨mul_nonneg nonneg least, mul_le_of_le_one_right nonneg most⟩
  cases wheel with
  | magentaRed least most => grind [part least.le most]
  | _ least most => grind [part least most]

/-- The colour has all its channels between zero and one. -/
structure InUnit (c : Color Rat) : Prop where
  red : c.red ∈ Set.Icc 0 1
  green : c.green ∈ Set.Icc 0 1
  blue : c.blue ∈ Set.Icc 0 1
  alpha : c.alpha ∈ Set.Icc 0 1

theorem inUnit_iff : c.InUnit ↔ 0 ≤ c.darkest ∧ c.brightest ≤ 1 ∧ c.alpha ∈ Set.Icc 0 1 := by
  rw [brightest_rat, darkest_rat, le_min_iff, le_min_iff, max_le_iff, max_le_iff]
  constructor
  · rintro ⟨red, green, blue, alpha⟩
    exact ⟨⟨⟨red.1, green.1⟩, blue.1⟩, ⟨⟨red.2, green.2⟩, blue.2⟩, alpha⟩
  · rintro ⟨⟨⟨red, green⟩, blue⟩, ⟨⟨red', green'⟩, blue'⟩, alpha⟩
    exact ⟨⟨red, red'⟩, ⟨green, green'⟩, ⟨blue, blue'⟩, alpha⟩

/-! ## Adjustments -/

theorem adjust_mem (value percent : Rat) : adjust value percent ∈ Set.Icc 0 1 :=
  Scalar.clampUnit_mem _

section Extents

variable (c) (percent : Rat)

theorem extent_adjustBrightness :
    (c.adjustBrightness percent).brightest = adjust c.brightest percent ∧
      (c.adjustBrightness percent).darkest =
        adjust c.brightest percent - adjust c.brightest percent * c.toHsb.saturation := by
  obtain ⟨r, g, b, wheel, -⟩ := c.places_hue
  have nonneg := mul_nonneg (adjust_mem c.brightest percent).1 c.saturation_nonneg
  exact extent_ofHsb (v := ⟨c.toHsb.hue, c.toHsb.saturation, adjust c.brightest percent⟩) wheel nonneg c.alpha

theorem extent_adjustSaturation :
    (c.adjustSaturation percent).brightest = c.brightest ∧
      (c.adjustSaturation percent).darkest =
        c.brightest - c.brightest * adjust c.toHsb.saturation percent := by
  obtain ⟨r, g, b, wheel, -⟩ := c.places_hue
  have nonneg : 0 ≤ c.brightest * adjust c.toHsb.saturation percent := by
    rcases le_or_gt c.brightest 0 with dim | lit
    · simp [adjust, saturation_of_dim dim]
    · exact mul_nonneg lit.le (adjust_mem c.toHsb.saturation percent).1
  exact extent_ofHsb (v := ⟨c.toHsb.hue, adjust c.toHsb.saturation percent, c.brightest⟩) wheel nonneg c.alpha

end Extents

/-- Where no channel is negative, brightness is adjusted by one factor for all three. -/
theorem adjustBrightness_eq (nonneg : 0 ≤ c.darkest) (percent : Rat) :
    c.adjustBrightness percent =
      let factor := adjust c.brightest percent / c.brightest
      ⟨factor * c.red, factor * c.green, factor * c.blue, c.alpha⟩ := by
  obtain ⟨r, g, b, wheel, red, green, blue⟩ := c.places_hue
  have chroma := brightest_mul_saturation nonneg
  have base : c.darkest = c.brightest - c.spread := (sub_sub_cancel _ _).symm
  have scaled (t : Rat) :
      adjust c.brightest percent * c.toHsb.saturation * t +
          (adjust c.brightest percent - adjust c.brightest percent * c.toHsb.saturation) =
        adjust c.brightest percent / c.brightest * (c.darkest + c.spread * t) := by
    rw [base, ← chroma]
    -- Black stays black. There is no factor to find, and any would do.
    rcases eq_or_ne c.brightest 0 with black | lit
    · have none : adjust c.brightest percent = 0 := by simp [adjust, black]
      rw [none]
      ring
    · field_simp
      ring
  refine (ofHsb_of_wheel (v := ⟨c.toHsb.hue, c.toHsb.saturation, adjust c.brightest percent⟩) wheel c.alpha).trans ?_
  simp only [scaled, ← red, ← green, ← blue]

theorem InUnit.adjustBrightness (inUnit : c.InUnit) (percent : Rat) : (c.adjustBrightness percent).InUnit := by
  obtain ⟨dark, -, alpha⟩ := inUnit_iff.mp inUnit
  obtain ⟨brightest, darkest⟩ := c.extent_adjustBrightness percent
  obtain ⟨least, most⟩ := adjust_mem c.brightest percent
  have part := mul_le_of_le_one_right least (saturation_le_one dark)
  rw [inUnit_iff, brightest, darkest]
  exact ⟨by linarith, most, alpha⟩

theorem InUnit.adjustSaturation (inUnit : c.InUnit) (percent : Rat) : (c.adjustSaturation percent).InUnit := by
  obtain ⟨dark, bright, alpha⟩ := inUnit_iff.mp inUnit
  have nonneg := dark.trans c.darkest_le_brightest
  obtain ⟨brightest, darkest⟩ := c.extent_adjustSaturation percent
  have part := mul_le_of_le_one_right nonneg (adjust_mem c.toHsb.saturation percent).2
  rw [inUnit_iff, brightest, darkest]
  exact ⟨by linarith, bright, alpha⟩

theorem InUnit.of_alpha (inUnit : c.InUnit) {alpha : Rat} (range : alpha ∈ Set.Icc 0 1) : InUnit { c with alpha } :=
  { inUnit with alpha := range }

/-- **Hue, saturation and brightness are exact.** For a colour in range they are in range, they give the colour back,
and adjustments by any percentage stay in range. Brightness is adjusted by one factor for the three channels. -/
theorem hsb_exact (inUnit : c.InUnit) :
    ofHsb c.toHsb c.alpha = c ∧
      (c.toHsb.hue ∈ Set.Ico 0 1 ∧ c.toHsb.saturation ∈ Set.Icc 0 1 ∧ c.toHsb.brightness ∈ Set.Icc 0 1) ∧
      ∀ percent : Rat,
        ((c.adjustBrightness percent).InUnit ∧ (c.adjustSaturation percent).InUnit ∧ (c.adjustAlpha percent).InUnit) ∧
          ∃ factor, c.adjustBrightness percent = ⟨factor * c.red, factor * c.green, factor * c.blue, c.alpha⟩ := by
  obtain ⟨dark, bright, -⟩ := inUnit_iff.mp inUnit
  refine ⟨ofHsb_toHsb dark, ⟨c.hue_mem, ⟨c.saturation_nonneg, saturation_le_one dark⟩, ?_⟩, fun percent => ⟨?_, ?_⟩⟩
  · exact ⟨dark.trans c.darkest_le_brightest, bright⟩
  · exact ⟨inUnit.adjustBrightness percent, inUnit.adjustSaturation percent, inUnit.of_alpha (adjust_mem _ _)⟩
  · exact ⟨_, adjustBrightness_eq dark percent⟩

/-- Magenta, between two sixths of the wheel. -/
theorem hsb_exact_magenta :
    (⟨1 / 2, 0, 1 / 2, 1⟩ : Color Rat).InUnit ∧
      ofHsb (⟨1 / 2, 0, 1 / 2, 1⟩ : Color Rat).toHsb 1 = ⟨1 / 2, 0, 1 / 2, 1⟩ ∧
      (⟨1 / 2, 0, 1 / 2, 1⟩ : Color Rat).toHsb = ⟨5 / 6, 1, 1 / 2⟩ ∧
      ((⟨1 / 2, 0, 1 / 2, 1⟩ : Color Rat).adjustBrightness 300).InUnit := by
  have inUnit : (⟨1 / 2, 0, 1 / 2, 1⟩ : Color Rat).InUnit := by
    constructor <;> constructor <;> norm_num
  obtain ⟨back, -, adjusted⟩ := hsb_exact inUnit
  exact ⟨inUnit, back, by decide +kernel, (adjusted 300).1.1⟩

end Stylebook.Color
