import Stylebook.Color.Basic
import Stylebook.Proofs.Scalar.Exact

/-!
# The wheel of colours

The hues lie on a wheel that is six long. Red is at 0, green at 2 and blue at 4, and on the way from one to the next
first the channel that is reached rises while the other is full, then the other falls. `Wheel h r g b` says that `r`,
`g` and `b` are the shares of the three channels at the place `h`. In it a colour next to red, green or blue is placed
by its distance `t` from that channel, so that the six places where two arcs meet belong to both.

A colour of a hue has the shares of that place, stretched by its chroma and lifted by its base (`ofHsb_of_wheel`).
Conversely the hue of a colour is a place that has the shares of its channels (`places_hue`), which is all that is used
of it later.
-/

set_option autoImplicit false

namespace Stylebook.Color

/-- The shares of red, green and blue at a place on the wheel. -/
inductive Wheel : Rat → Rat → Rat → Rat → Prop
  | redYellow {t : Rat} (least : 0 ≤ t) (most : t ≤ 1) : Wheel t 1 t 0
  | yellowGreen {t : Rat} (least : 0 ≤ t) (most : t ≤ 1) : Wheel (2 - t) t 1 0
  | greenCyan {t : Rat} (least : 0 ≤ t) (most : t ≤ 1) : Wheel (2 + t) 0 1 t
  | cyanBlue {t : Rat} (least : 0 ≤ t) (most : t ≤ 1) : Wheel (4 - t) 0 t 1
  | blueMagenta {t : Rat} (least : 0 ≤ t) (most : t ≤ 1) : Wheel (4 + t) t 0 1
  -- The end of the wheel is its start, which is on the first arc.
  | magentaRed {t : Rat} (least : 0 < t) (most : t ≤ 1) : Wheel (6 - t) 1 0 t

variable {h r g b : Rat}

theorem Wheel.place (wheel : Wheel h r g b) : 0 ≤ h ∧ h < 6 := by
  cases wheel <;> constructor <;> linarith

/-! ## The colour of a place -/

/-- The share of the channel that is neither full nor empty. -/
def rise (h : Rat) : Rat :=
  1 - |Scalar.remainder h 2 - 1|

/-- The channels in a sixth of the wheel, where `x` is the one that is neither full nor empty. -/
def corners (sector : Nat) (chroma x : Rat) : Rat × Rat × Rat :=
  match sector with
  | 0 => (chroma, x, 0)
  | 1 => (x, chroma, 0)
  | 2 => (0, chroma, x)
  | 3 => (0, x, chroma)
  | 4 => (x, 0, chroma)
  | _ => (chroma, 0, x)

section Shares

variable {t : Rat}

theorem rise_up (k : Int) (least : 0 ≤ t) (most : t ≤ 1) : rise (2 * k + t) = t := by
  rw [rise, Scalar.remainder_add two_pos least (by linarith), abs_of_nonpos (by linarith)]
  ring

theorem rise_down (k : Int) (least : 0 ≤ t) (most : t ≤ 1) : rise (2 * k - t) = t := by
  rcases least.eq_or_lt with rfl | positive
  · simpa using rise_up k le_rfl zero_le_one
  · have before : 2 * (k : Rat) - t = 2 * ((k - 1 : Int) : Rat) + (2 - t) := by
      push_cast
      ring
    rw [rise, before, Scalar.remainder_add two_pos (by linarith) (by linarith), abs_of_nonneg (by linarith)]
    ring

/-- At the end of a sixth the next one has begun already, with the same shares. -/
theorem corners_up {k : Nat} (place : h = 2 * k + t) (least : 0 ≤ t) (most : t ≤ 1) (chroma : Rat) :
    corners (Scalar.wholePart h) chroma (chroma * rise h) = corners (2 * k) chroma (chroma * t) := by
  subst place
  have between : rise (2 * k + t) = t := by simpa using rise_up k least most
  rw [between]
  -- The whole part goes up at the end of the sixth, where the shares of both sixths are the same.
  rcases most.eq_or_lt with rfl | less
  · have next : Scalar.wholePart (2 * (k : Rat) + 1) = 2 * k + 1 :=
      Scalar.wholePart_rat (by push_cast; linarith) (by push_cast; linarith)
    rw [next, mul_one]
    match k with
    | 0 | 1 | 2 | _ + 3 => rfl
  · have here : Scalar.wholePart (2 * (k : Rat) + t) = 2 * k :=
      Scalar.wholePart_rat (by push_cast; linarith) (by push_cast; linarith)
    rw [here]

theorem corners_down {k : Nat} (place : h = 2 * (k + 1) - t) (least : 0 ≤ t) (most : t ≤ 1) (chroma : Rat) :
    corners (Scalar.wholePart h) chroma (chroma * rise h) = corners (2 * k + 1) chroma (chroma * t) := by
  subst place
  have between : rise (2 * (k + 1) - t) = t := by simpa using rise_down (k + 1) least most
  rw [between]
  rcases least.eq_or_lt with rfl | positive
  · have next : Scalar.wholePart (2 * ((k : Rat) + 1) - 0) = 2 * k + 2 :=
      Scalar.wholePart_rat (by push_cast; linarith) (by push_cast; linarith)
    rw [next, mul_zero]
    match k with
    | 0 | 1 | 2 | _ + 3 => rfl
  · have here : Scalar.wholePart (2 * ((k : Rat) + 1) - t) = 2 * k + 1 :=
      Scalar.wholePart_rat (by push_cast; linarith) (by push_cast; linarith)
    rw [here]

end Shares

theorem Wheel.corners (wheel : Wheel h r g b) (chroma : Rat) :
    Color.corners (Scalar.wholePart h) chroma (chroma * rise h) = (chroma * r, chroma * g, chroma * b) := by
  cases wheel with
  | redYellow least most => exact (corners_up (k := 0) (by norm_num) least most chroma).trans (by simp [Color.corners])
  | yellowGreen least most =>
    exact (corners_down (k := 0) (by norm_num) least most chroma).trans (by simp [Color.corners])
  | greenCyan least most => exact (corners_up (k := 1) (by norm_num) least most chroma).trans (by simp [Color.corners])
  | cyanBlue least most => exact (corners_down (k := 1) (by norm_num) least most chroma).trans (by simp [Color.corners])
  | blueMagenta least most =>
    exact (corners_up (k := 2) (by norm_num) least most chroma).trans (by simp [Color.corners])
  | magentaRed least most =>
    exact (corners_down (k := 2) (by norm_num) least.le most chroma).trans (by simp [Color.corners])

theorem ofHsb_rat (v : Hsb Rat) (alpha : Rat) (least : 0 ≤ v.hue) (most : v.hue < 1) :
    ofHsb v alpha =
      let chroma := v.brightness * v.saturation
      let base := v.brightness - chroma
      let (r, g, b) := corners (Scalar.wholePart (6 * v.hue)) chroma (chroma * rise (6 * v.hue))
      ⟨r + base, g + base, b + base, alpha⟩ := by
  have six : Scalar.remainder v.hue 1 * 6 = 6 * v.hue := by rw [Scalar.remainder_of_lt least most, mul_comm]
  simp only [ofHsb, Scalar.one_rat, Scalar.ofNat_rat, Scalar.zero_rat, Scalar.size_rat, Nat.cast_ofNat, six]
  rfl

/-- A colour has the shares of its place. -/
theorem ofHsb_of_wheel {v : Hsb Rat} (wheel : Wheel (6 * v.hue) r g b) (alpha : Rat) :
    ofHsb v alpha =
      let chroma := v.brightness * v.saturation
      let base := v.brightness - chroma
      ⟨chroma * r + base, chroma * g + base, chroma * b + base, alpha⟩ := by
  obtain ⟨least, most⟩ := wheel.place
  simp only [ofHsb_rat v alpha (by linarith) (by linarith), wheel.corners]

/-! ## The place of a colour -/

theorem brightest_rat (c : Color Rat) : c.brightest = max (max c.red c.green) c.blue := by
  simp [brightest]

theorem darkest_rat (c : Color Rat) : c.darkest = min (min c.red c.green) c.blue := by
  simp [darkest]

/-- How far the channels lie apart. -/
def spread (c : Color Rat) : Rat :=
  c.brightest - c.darkest

theorem darkest_le_brightest (c : Color Rat) : c.darkest ≤ c.brightest := by
  grind [brightest_rat, darkest_rat]

theorem spread_nonneg (c : Color Rat) : 0 ≤ c.spread :=
  sub_nonneg.mpr c.darkest_le_brightest

theorem hue_rat (c : Color Rat) :
    c.toHsb.hue =
      if c.spread = 0 then 0
      else if c.brightest = c.red then Scalar.remainder ((c.green - c.blue) / c.spread) 6 / 6
      else if c.brightest = c.green then ((c.blue - c.red) / c.spread + 2) / 6
      else ((c.red - c.green) / c.spread + 4) / 6 := by
  simp only [toHsb, spread, beq_iff_eq, Scalar.zero_rat, Scalar.ofNat_rat, Nat.cast_ofNat]
  rfl

/-- The place has the shares of the colour. -/
def Places (c : Color Rat) (h : Rat) : Prop :=
  ∃ r g b, Wheel h r g b ∧ c.red = c.darkest + c.spread * r ∧ c.green = c.darkest + c.spread * g ∧
    c.blue = c.darkest + c.spread * b

section Places

variable {c : Color Rat} (pos : 0 < c.spread)
include pos

/-- Between magenta and yellow. Behind red the remainder takes the place to the end of the wheel. -/
theorem places_red (top : c.brightest = c.red) :
    c.Places (Scalar.remainder ((c.green - c.blue) / c.spread) 6) := by
  have bright := brightest_rat c
  have dark := darkest_rat c
  rcases le_or_gt c.blue c.green with below | above
  · obtain ⟨least, most, whole⟩ := Scalar.div_share pos (x := c.green - c.blue) (by linarith) (by grind [spread])
    rw [Scalar.remainder_of_lt least (by linarith)]
    refine ⟨_, _, _, .redYellow least most, ?_, ?_, ?_⟩ <;> grind [spread]
  · obtain ⟨-, most, whole⟩ := Scalar.div_share pos (x := c.blue - c.green) (by linarith) (by grind [spread])
    have positive : 0 < (c.blue - c.green) / c.spread := div_pos (by linarith) pos
    have turned : (c.green - c.blue) / c.spread = 6 * ((-1 : Int) : Rat) + (6 - (c.blue - c.green) / c.spread) := by
      push_cast
      ring
    rw [turned, Scalar.remainder_add (by norm_num) (by linarith) (by linarith)]
    refine ⟨_, _, _, .magentaRed positive most, ?_, ?_, ?_⟩ <;> grind [spread]

/-- Between yellow and cyan. -/
theorem places_green (top : c.brightest = c.green) : c.Places ((c.blue - c.red) / c.spread + 2) := by
  have bright := brightest_rat c
  have dark := darkest_rat c
  rcases le_total c.red c.blue with below | above
  · obtain ⟨least, most, whole⟩ := Scalar.div_share pos (x := c.blue - c.red) (by linarith) (by grind [spread])
    rw [add_comm]
    refine ⟨_, _, _, .greenCyan least most, ?_, ?_, ?_⟩ <;> grind [spread]
  · obtain ⟨least, most, whole⟩ := Scalar.div_share pos (x := c.red - c.blue) (by linarith) (by grind [spread])
    have place : (c.blue - c.red) / c.spread + 2 = 2 - (c.red - c.blue) / c.spread := by ring
    rw [place]
    refine ⟨_, _, _, .yellowGreen least most, ?_, ?_, ?_⟩ <;> grind [spread]

/-- Between cyan and magenta. -/
theorem places_blue (top : c.brightest = c.blue) : c.Places ((c.red - c.green) / c.spread + 4) := by
  have bright := brightest_rat c
  have dark := darkest_rat c
  rcases le_total c.green c.red with below | above
  · obtain ⟨least, most, whole⟩ := Scalar.div_share pos (x := c.red - c.green) (by linarith) (by grind [spread])
    rw [add_comm]
    refine ⟨_, _, _, .blueMagenta least most, ?_, ?_, ?_⟩ <;> grind [spread]
  · obtain ⟨least, most, whole⟩ := Scalar.div_share pos (x := c.green - c.red) (by linarith) (by grind [spread])
    have place : (c.red - c.green) / c.spread + 4 = 4 - (c.green - c.red) / c.spread := by ring
    rw [place]
    refine ⟨_, _, _, .cyanBlue least most, ?_, ?_, ?_⟩ <;> grind [spread]

end Places

/-- **The hue of a colour is its place.** A grey has none of its own and is placed at red, without any chroma. -/
theorem places_hue (c : Color Rat) : c.Places (6 * c.toHsb.hue) := by
  have bright := brightest_rat c
  have dark := darkest_rat c
  rw [hue_rat]
  split
  · refine ⟨_, _, _, .redYellow (by simp) (by simp), ?_, ?_, ?_⟩ <;> grind [spread]
  · rename_i uneven
    have pos : 0 < c.spread := lt_of_le_of_ne c.spread_nonneg (Ne.symm uneven)
    have six (x : Rat) : 6 * (x / 6) = x := mul_div_cancel₀ x (by norm_num)
    split
    · rw [six]
      exact places_red pos ‹_›
    · rw [mul_ite, six, six]
      split
      · exact places_green pos ‹_›
      · exact places_blue pos (by grind)

end Stylebook.Color
