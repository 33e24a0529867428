import Stylebook.Proofs.Color.Expression
import Stylebook.Proofs.Color.Hsb

/-!
# Colours in range

A colour should have its channels between zero and one. Alpha always is there: whatever sets it clamps it. So are the
channels of a colour that is one word. But the channels of a colour that is written by its channels are what was
written, divided by 255, and no step clamps them (`rgb_out_of_range`).

What an adjustment makes of such a colour depends on its brightest and its darkest channel. Brightness is clamped when
it is adjusted, so that a colour can come back into range, while saturation is taken for a share of the brightness,
whatever that is. `Expression.Confined` is the condition, and `inUnit_iff_confined` says that there is no other. Where
all channels are written between 0 and 255, the condition is met at any depth (`Written.inUnit_of_bounded`).
-/

set_option autoImplicit false

namespace Stylebook.Color

open Reading (whole)

/-! ## Colours of one word -/

theorem channel_mem {n : Nat} (byte : n ≤ 255) : (channel n : Rat) ∈ Set.Icc 0 1 := by
  rw [channel, Scalar.ofNat_rat, Scalar.ofNat_rat]
  constructor
  · positivity
  · rw [div_le_one (by norm_num)]
    exact_mod_cast byte

theorem inUnit_ofBytes {red green blue : Nat} (bytes : ∀ n ∈ [red, green, blue], n ≤ 255) :
    (ofBytes red green blue : Color Rat).InUnit where
  red := channel_mem (bytes red (by simp))
  green := channel_mem (bytes green (by simp))
  blue := channel_mem (bytes blue (by simp))
  alpha := by simp [ofBytes]

/-- What holds of the first characters holds of hexadecimal digits. -/
theorem of_isHexDigit {P : Char → Prop} (all : ∀ n < 128, Lexer.isHexDigit (Char.ofNat n) = true → P (Char.ofNat n))
    {d : Char} (digit : Lexer.isHexDigit d = true) : P d := by
  have point : d.toNat < 128 := by
    simp only [Lexer.isHexDigit, Char.isDigit, Bool.or_eq_true, Bool.and_eq_true, decide_eq_true_eq, Char.le_def,
      UInt32.le_iff_toNat_le] at digit
    change d.val.toNat < 128
    rcases digit with (⟨-, most⟩ | ⟨-, most⟩) | ⟨-, most⟩ <;> exact most.trans_lt (by decide)
  have here := all d.toNat point
  rw [Char.ofNat_toNat] at here
  exact here digit

theorem hexValue_le {d : Char} (digit : Lexer.isHexDigit d = true) : hexValue d ≤ 15 :=
  of_isHexDigit (P := fun d => hexValue d ≤ 15) (by decide +kernel) digit

theorem hexBytes?_le {ds bytes : List Nat} (digits : ∀ d ∈ ds, d ≤ 15) (h : hexBytes? ds = some bytes) :
    ∀ n ∈ bytes, n ≤ 255 := by
  unfold hexBytes? at h
  split at h
  case h_5 => cases h
  all_goals
    obtain rfl := Option.some.inj h
    simp only [List.mem_cons, List.not_mem_nil, or_false, forall_eq_or_imp, forall_eq] at digits ⊢
    omega

theorem inUnit_of_ofHex? {cs : List Char} {c : Color Rat} (h : ofHex? cs = some c) : c.InUnit := by
  unfold ofHex? at h
  simp only at h
  split at h
  · rename_i digits
    have small : ∀ d ∈ (hexDigits cs).map hexValue, d ≤ 15 := by
      intro d hd
      obtain ⟨x, hx, rfl⟩ := List.mem_map.mp hd
      exact hexValue_le (List.all_eq_true.mp digits x hx)
    split at h
    · rename_i r g b bytes
      cases h
      exact inUnit_ofBytes (hexBytes?_le small bytes)
    · rename_i r g b a bytes
      cases h
      have all := hexBytes?_le small bytes
      exact ⟨channel_mem (all r (by simp)), channel_mem (all g (by simp)), channel_mem (all b (by simp)),
        channel_mem (all a (by simp))⟩
    · cases h
  · cases h

theorem inUnit_of_named? {name : List Char} {c : Color Rat} (h : named? name = some c) : c.InUnit := by
  have table : ∀ e ∈ namedBytes, ∀ n ∈ [e.2.1, e.2.2.1, e.2.2.2], n ≤ 255 := by decide
  unfold named? at h
  simp only at h
  split at h
  · cases h
    constructor <;> simp [clear]
  · obtain ⟨⟨r, g, b⟩, found, rfl⟩ := Option.map_eq_some_iff.mp h
    exact inUnit_ofBytes (table _ (Table.mem_entries (t := ⟨namedBytes⟩) found))

theorem inUnit_of_simple? {w : Word} {c : Color Rat} (h : simple? w = some c) : c.InUnit := by
  unfold simple? at h
  split at h
  · exact inUnit_of_ofHex? h
  · exact inUnit_of_named? h
  · cases h

/-! ## Adjusted colours -/

section Adjusted

variable {c : Color Rat} {percent n : Rat}

theorem saturation_le_one_iff : c.toHsb.saturation ≤ 1 ↔ 0 ≤ c.darkest ∨ c.brightest ≤ 0 := by
  rcases le_or_gt c.brightest 0 with dim | lit
  · simp [saturation_of_dim dim, dim]
  · rw [saturation_rat, if_pos lit, div_le_one lit, spread]
    simp [not_le.mpr lit]

theorem adjust_eq_zero_iff {value : Rat} (pos : 0 < value) : adjust value percent = 0 ↔ percent ≤ -100 := by
  have whole : value + value * percent / 100 = value * ((percent + 100) / 100) := by ring
  rw [adjust, Scalar.clampUnit_rat, max_eq_left_iff, min_le_iff, or_iff_left (by norm_num), Scalar.ofNat_rat,
    Nat.cast_ofNat, whole, ← not_lt, mul_pos_iff_of_pos_left pos, not_lt]
  constructor <;> intro h <;> linarith

/-- Brightness is in range when it is adjusted, and the darkest channel if it was or if nothing of it is left. -/
theorem inUnit_adjustBrightness_iff (alpha : c.alpha ∈ Set.Icc 0 1) :
    (c.adjustBrightness percent).InUnit ↔ 0 ≤ c.darkest ∨ c.brightest ≤ 0 ∨ percent ≤ -100 := by
  obtain ⟨brightest, darkest⟩ := c.extent_adjustBrightness percent
  obtain ⟨least, most⟩ := adjust_mem c.brightest percent
  have inside : (c.adjustBrightness percent).InUnit ↔
      adjust c.brightest percent = 0 ∨ c.toHsb.saturation ≤ 1 := by
    rw [inUnit_iff, brightest, darkest]
    constructor
    · rintro ⟨dark, -, -⟩
      rcases least.eq_or_lt with black | lit
      · exact .inl black.symm
      · exact .inr (le_of_mul_le_mul_left (by linarith) lit)
    · rintro (black | share)
      · exact ⟨by simp [black], most, alpha⟩
      · exact ⟨by linarith [mul_le_of_le_one_right least share], most, alpha⟩
  rw [inside, saturation_le_one_iff]
  -- A colour without brightness comes out grey, whatever the amount.
  rcases le_or_gt c.brightest 0 with dim | lit
  · simp [dim]
  · rw [adjust_eq_zero_iff lit, or_comm, or_assoc]

/-- Saturation is a share of the brightness, which has to be in range. -/
theorem inUnit_adjustSaturation_iff (alpha : c.alpha ∈ Set.Icc 0 1) :
    (c.adjustSaturation percent).InUnit ↔ c.brightest ∈ Set.Icc 0 1 := by
  obtain ⟨brightest, darkest⟩ := c.extent_adjustSaturation percent
  constructor
  · intro inUnit
    obtain ⟨dark, bright, -⟩ := inUnit_iff.mp inUnit
    have order := (c.adjustSaturation percent).darkest_le_brightest
    rw [brightest] at order bright
    exact ⟨dark.trans order, bright⟩
  · rintro ⟨nonneg, bright⟩
    have part := mul_le_of_le_one_right nonneg (adjust_mem c.toHsb.saturation percent).2
    rw [inUnit_iff, brightest, darkest]
    exact ⟨by linarith, bright, alpha⟩

theorem inUnit_alpha_iff {alpha : Rat} (range : alpha ∈ Set.Icc 0 1) :
    InUnit { c with alpha } ↔ 0 ≤ c.darkest ∧ c.brightest ≤ 1 := by
  rw [inUnit_iff]
  exact ⟨fun ⟨dark, bright, _⟩ => ⟨dark, bright⟩, fun ⟨dark, bright⟩ => ⟨dark, bright, range⟩⟩

/-- What has to hold of a colour for its adjustment to be in range. -/
def Adjustment.Confines (a : Adjustment) (c : Color Rat) (n : Rat) : Prop :=
  match a with
  | lighten => 0 ≤ c.darkest ∨ c.brightest ≤ 0 ∨ n ≤ -100
  | darken => 0 ≤ c.darkest ∨ c.brightest ≤ 0 ∨ 100 ≤ n
  | saturate | desaturate => c.brightest ∈ Set.Icc 0 1
  | fadein | fadeout | alpha | opacity => 0 ≤ c.darkest ∧ c.brightest ≤ 1

theorem Adjustment.alpha_apply (a : Adjustment) (alpha : c.alpha ∈ Set.Icc 0 1) :
    (a.apply c n).alpha ∈ Set.Icc 0 1 := by
  cases a with
  | lighten | darken | saturate | desaturate => exact alpha
  | fadein | fadeout => exact adjust_mem _ _
  | alpha | opacity => exact Scalar.clampUnit_mem n

theorem Adjustment.inUnit_apply_iff (a : Adjustment) (alpha : c.alpha ∈ Set.Icc 0 1) :
    (a.apply c n).InUnit ↔ a.Confines c n := by
  cases a with
  | lighten => exact inUnit_adjustBrightness_iff alpha
  | darken =>
    rw [apply, inUnit_adjustBrightness_iff alpha, neg_le_neg_iff]
    rfl
  | saturate | desaturate => exact inUnit_adjustSaturation_iff alpha
  | fadein | fadeout => exact inUnit_alpha_iff (adjust_mem _ _)
  | alpha | opacity => exact inUnit_alpha_iff (Scalar.clampUnit_mem n)

end Adjusted

/-! ## Expressions -/

/-- The numbers lie between 0 and 255. -/
def WithinBytes (channels : List Rat) : Prop :=
  ∀ x ∈ channels, x ∈ Set.Icc 0 255

theorem ofChannel_mem_iff {x : Rat} : ofChannel x ∈ Set.Icc 0 1 ↔ x ∈ Set.Icc 0 255 := by
  rw [ofChannel, Scalar.ofNat_rat, Set.mem_Icc, Set.mem_Icc]
  constructor <;> rintro ⟨least, most⟩ <;> constructor <;> push_cast at * <;> linarith

theorem inUnit_ofChannels_iff {red green blue alpha : Rat} (range : alpha ∈ Set.Icc 0 1) :
    (⟨ofChannel red, ofChannel green, ofChannel blue, alpha⟩ : Color Rat).InUnit ↔ WithinBytes [red, green, blue] := by
  simp only [WithinBytes, List.mem_cons, List.not_mem_nil, or_false, forall_eq_or_imp, forall_eq, ← ofChannel_mem_iff]
  exact ⟨fun ⟨r, g, b, _⟩ => ⟨r, g, b⟩, fun ⟨r, g, b⟩ => ⟨r, g, b, range⟩⟩

namespace Expression

/-- The condition for the colour of an expression to be in range. -/
def Confined : Expression Rat → Prop
  | simple _ => True
  | rgb red green blue => WithinBytes [red, green, blue]
  | rgba red green blue _ => WithinBytes [red, green, blue]
  | adjusted adjustment inner amount => adjustment.Confines inner.color amount

/-- All channels in the expression are written between 0 and 255. -/
def Bounded : Expression Rat → Prop
  | simple _ => True
  | rgb red green blue => WithinBytes [red, green, blue]
  | rgba red green blue _ => WithinBytes [red, green, blue]
  | adjusted _ inner _ => inner.Bounded

end Expression

section Written

variable {e : Expression Rat} {ws : List Word}

theorem Written.alpha_mem (written : Written e ws) : e.color.alpha ∈ Set.Icc 0 1 := by
  induction written with
  | simple color => exact (inUnit_of_simple? color).alpha
  | rgb => exact ⟨zero_le_one, le_rfl⟩
  | rgba => exact Scalar.clampUnit_mem _
  | adjusted _ _ _ _ _ _ ih => exact Adjustment.alpha_apply _ ih

theorem Written.confined_iff (written : Written e ws) : e.color.InUnit ↔ e.Confined := by
  -- No induction: what comes out depends on the colour inside, however that came about.
  cases written with
  | simple color => exact iff_of_true (inUnit_of_simple? color) trivial
  | rgb => exact inUnit_ofChannels_iff ⟨zero_le_one, le_rfl⟩
  | rgba => exact inUnit_ofChannels_iff (Scalar.clampUnit_mem _)
  | adjusted _ _ inner => exact Adjustment.inUnit_apply_iff _ inner.alpha_mem

/-- No adjustment of a colour in range leaves the range. -/
theorem Adjustment.inUnit_apply {c : Color Rat} (a : Adjustment) (inUnit : c.InUnit) (n : Rat) :
    (a.apply c n).InUnit := by
  cases a with
  | lighten | darken => exact inUnit.adjustBrightness _
  | saturate | desaturate => exact inUnit.adjustSaturation _
  | fadein | fadeout => exact inUnit.of_alpha (adjust_mem _ _)
  | alpha | opacity => exact inUnit.of_alpha (Scalar.clampUnit_mem n)

theorem Written.inUnit_of_bounded (written : Written e ws) (bounded : e.Bounded) : e.color.InUnit := by
  induction written with
  | simple color => exact inUnit_of_simple? color
  | rgb => exact (inUnit_ofChannels_iff ⟨zero_le_one, le_rfl⟩).mpr bounded
  | rgba => exact (inUnit_ofChannels_iff (Scalar.clampUnit_mem _)).mpr bounded
  | adjusted _ _ _ _ _ _ ih => exact Adjustment.inUnit_apply _ (ih bounded) _

end Written

/-! ## Texts -/

theorem inUnit_of_quoted {type : ValueType} {raw : List Char} {c : Color Rat} (quoted : Text.isQuoted raw = true)
    (accepted : readColor type raw = .ok (.color c)) : c.InUnit := by
  rw [readColor, if_pos quoted] at accepted
  simp only at accepted
  split at accepted
  · rename_i known
    cases accepted
    exact inUnit_of_named? known
  · cases accepted

/-- **Colours are in range if their expressions are confined.** The alpha of a colour that is accepted is in range, and
so is a quoted colour. Any other is the colour of its expression, and in range under the condition of that expression,
which is met where all channels are written between 0 and 255. -/
theorem inUnit_iff_confined {type : ValueType} {raw : List Char} {c : Color Rat}
    (accepted : readColor type raw = .ok (.color c)) :
    c.alpha ∈ Set.Icc 0 1 ∧
      (Text.isQuoted raw = true → c.InUnit) ∧
      (Text.isQuoted raw = false →
        (∃ (e : Expression Rat) (ws : List Word), Lexer.Consists raw ws ∧ Written e ws) ∧
        ∀ (e : Expression Rat) (ws : List Word), Lexer.Consists raw ws → Written e ws →
          e.color = c ∧ (c.InUnit ↔ e.Confined) ∧ (e.Bounded → c.InUnit)) := by
  cases quoted : Text.isQuoted raw with
  | true =>
    have inUnit := inUnit_of_quoted quoted accepted
    exact ⟨inUnit.alpha, fun _ => inUnit, nofun⟩
  | false =>
    have expression (e : Expression Rat) (ws : List Word) (consists : Lexer.Consists raw ws)
        (written : Written e ws) : e.color = c ∧ (c.InUnit ↔ e.Confined) ∧ (e.Bounded → c.InUnit) := by
      have read : readColor type raw = .ok (.color e.color) :=
        (readColor_eq_ok_iff quoted).mpr ⟨e, ws, consists, written, rfl⟩
      rw [read] at accepted
      obtain rfl := Value.color.inj (Except.ok.inj accepted)
      exact ⟨rfl, written.confined_iff, written.inUnit_of_bounded⟩
    obtain ⟨e, ws, consists, written, color⟩ := (readColor_eq_ok_iff quoted).mp accepted
    obtain rfl := Value.color.inj color
    exact ⟨written.alpha_mem, nofun, fun _ => ⟨⟨e, ws, consists, written⟩, expression⟩⟩

/-- A channel that is too large, and brought back when brightness is adjusted. -/
theorem inUnit_iff_confined_lighten :
    readColor .color "lighten(rgb(300, 0, 0), 5)".toList = .ok (.color (⟨1, 0, 0, 1⟩ : Color Rat)) ∧
      ∃ (e : Expression Rat) (ws : List Word), Lexer.Consists "lighten(rgb(300, 0, 0), 5)".toList ws ∧ Written e ws ∧
        e.color = ⟨1, 0, 0, 1⟩ ∧ e.Confined := by
  have bare : Text.isQuoted "lighten(rgb(300, 0, 0), 5)".toList = false := by decide +kernel
  have whole : whole .color "lighten(rgb(300, 0, 0), 5)".toList take = .ok (⟨1, 0, 0, 1⟩ : Color Rat) := by
    decide +kernel
  have accepted : readColor .color "lighten(rgb(300, 0, 0), 5)".toList = .ok (.color (⟨1, 0, 0, 1⟩ : Color Rat)) :=
    (readColor_eq_ok_iff_whole bare).mpr ⟨_, whole, rfl⟩
  have inUnit : (⟨1, 0, 0, 1⟩ : Color Rat).InUnit := by
    constructor <;> constructor <;> norm_num
  obtain ⟨-, -, unquoted⟩ := inUnit_iff_confined accepted
  obtain ⟨⟨e, ws, consists, written⟩, expression⟩ := unquoted bare
  obtain ⟨color, confined, -⟩ := expression e ws consists written
  exact ⟨accepted, e, ws, consists, written, color, confined.mp inUnit⟩

/-- A channel above 255 is accepted and out of range. -/
theorem rgb_out_of_range :
    readColor .color "rgb(300, 0, 0)".toList = .ok (.color (⟨20 / 17, 0, 0, 1⟩ : Color Rat)) ∧
      ¬(⟨20 / 17, 0, 0, 1⟩ : Color Rat).InUnit := by
  have bare : Text.isQuoted "rgb(300, 0, 0)".toList = false := by decide
  have whole : whole .color "rgb(300, 0, 0)".toList take = .ok (⟨20 / 17, 0, 0, 1⟩ : Color Rat) := by
    decide +kernel
  refine ⟨(readColor_eq_ok_iff_whole bare).mpr ⟨_, whole, rfl⟩, ?_⟩
  rintro ⟨red, -, -, -⟩
  exact absurd red.2 (by norm_num)

end Stylebook.Color
