import Stylebook.Proofs.Color.Range
import Stylebook.Proofs.Text.Trimming

/-!
# The written form of a colour

A colour is written as the bytes nearest to its channels, two small digits for each. A channel that is a whole number of
255ths is its byte again, and every other one is cut off or rounded to one (`byteOf_channel`, `byteOf_le`). So the text
of a colour is read as the nearest colour with such channels (`ofHex?_text`), whose text is the same.

On the other side, a text is read as a row of digits if it is three, four, six or eight of them with or without a number
sign in front (`exists_ofHex?_iff`). All of these are short for eight digits, and these in lower case are the text of
the colour (`text_of_isHex`). Both together are `text_canonical`.
-/

set_option autoImplicit false

namespace Stylebook.Color

open Lexer (isHexDigit)

/-! ## Digits and bytes -/

theorem digitChar_hexValue {d : Char} (digit : isHexDigit d = true) : Nat.digitChar (hexValue d) = d.toLower :=
  of_isHexDigit (P := fun d => Nat.digitChar (hexValue d) = d.toLower) (by decide +kernel) digit

section Bytes

variable {n : Nat}

theorem hexValue_digitChar (small : n < 16) : hexValue (Nat.digitChar n) = n := by
  have all : ∀ n < 16, hexValue (Nat.digitChar n) = n := by decide
  exact all n small

theorem isHexDigit_digitChar (small : n < 16) : isHexDigit (Nat.digitChar n) = true := by
  have all : ∀ n < 16, isHexDigit (Nat.digitChar n) = true := by decide
  exact all n small

theorem isHexDigit_of_mem_hexByte (byte : n ≤ 255) : ∀ d ∈ hexByte n, isHexDigit d = true := by
  have high : isHexDigit (Nat.digitChar (n / 16)) = true := isHexDigit_digitChar (by omega)
  have low : isHexDigit (Nat.digitChar (n % 16)) = true := isHexDigit_digitChar (by omega)
  simp [hexByte, high, low]

theorem map_hexValue_hexByte (byte : n ≤ 255) : (hexByte n).map hexValue = [n / 16, n % 16] := by
  simp only [hexByte, List.map_cons, List.map_nil]
  rw [hexValue_digitChar (by omega), hexValue_digitChar (by omega)]

/-- The digits of a byte are those that it was read from, in lower case. -/
theorem hexByte_hexValue {d e : Char} (high : isHexDigit d = true) (low : isHexDigit e = true) :
    hexByte (16 * hexValue d + hexValue e) = [d.toLower, e.toLower] := by
  have := hexValue_le low
  have div : (16 * hexValue d + hexValue e) / 16 = hexValue d := by omega
  have mod : (16 * hexValue d + hexValue e) % 16 = hexValue e := by omega
  rw [hexByte, div, mod, digitChar_hexValue high, digitChar_hexValue low]

end Bytes

/-! ## Channels -/

section Channels

variable {n : Nat} (x : Rat)

theorem channel_rat (n : Nat) : (channel n : Rat) = n / 255 := rfl

theorem byteOf_rat : byteOf x = ⌊max 0 (min x 1) * 255 + 1 / 2⌋.toNat := by
  rw [byteOf, Scalar.clampUnit_rat]
  rfl

theorem byteOf_le : byteOf x ≤ 255 := by
  have most : max 0 (min x 1) ≤ 1 := max_le zero_le_one (min_le_right _ _)
  have whole : ⌊max 0 (min x 1) * 255 + 1 / 2⌋ < 256 := by
    rw [Int.floor_lt]
    push_cast
    linarith
  rw [byteOf_rat]
  omega

theorem byteOf_channel (byte : n ≤ 255) : byteOf (channel n : Rat) = n := by
  obtain ⟨least, most⟩ := channel_mem byte
  have whole : ⌊(channel n : Rat) * 255 + 1 / 2⌋ = n := by
    rw [channel_rat, div_mul_cancel₀ _ (by norm_num), Int.floor_eq_iff]
    push_cast
    constructor <;> linarith
  rw [byteOf_rat, min_eq_left most, max_eq_right least, whole, Int.toNat_natCast]

end Channels

/-! ## Rows of digits -/

/-- The text is a row of digits that stands for a colour, with or without a number sign. -/
structure IsHex (cs ds : List Char) : Prop where
  text : cs = ds ∨ cs = '#' :: ds
  digits : ∀ d ∈ ds, isHexDigit d = true
  length : ds.length ∈ [3, 4, 6, 8]

/-- The eight digits that a row of digits is short for. -/
def longForm : List Char → List Char
  | [r, g, b] => [r, r, g, g, b, b, 'f', 'f']
  | [r, g, b, a] => [r, r, g, g, b, b, a, a]
  | [r, r', g, g', b, b'] => [r, r', g, g', b, b', 'f', 'f']
  | ds => ds

section Rows

variable {cs ds : List Char}

theorem IsHex.hexDigits (hex : IsHex cs ds) : hexDigits cs = ds := by
  obtain ⟨rfl | rfl, digits, length⟩ := hex
  · cases cs with
    | nil => rfl
    | cons c cs =>
      have first : c ≠ '#' := by
        rintro rfl
        exact absurd (digits '#' List.mem_cons_self) (by decide)
      unfold Color.hexDigits
      split
      · rename_i h
        exact absurd (List.cons.inj h).1 first
      · rfl
  · rfl

theorem eq_or_eq_cons_hexDigits (cs : List Char) : cs = hexDigits cs ∨ cs = '#' :: hexDigits cs := by
  unfold hexDigits
  split
  · exact .inr rfl
  · exact .inl rfl

theorem length_of_hexBytes? {ns bytes : List Nat} (h : hexBytes? ns = some bytes) : ns.length ∈ [3, 4, 6, 8] := by
  unfold hexBytes? at h
  split at h
  case h_5 => cases h
  all_goals simp

theorem isHex_of_ofHex? {α : Type} [Scalar α] {c : Color α} (h : ofHex? cs = some c) : IsHex cs (hexDigits cs) := by
  unfold ofHex? at h
  simp only at h
  split at h
  · rename_i digits
    refine ⟨eq_or_eq_cons_hexDigits cs, List.all_eq_true.mp digits, ?_⟩
    cases bytes : hexBytes? ((hexDigits cs).map hexValue) with
    | none => simp [bytes] at h
    | some ns => simpa using length_of_hexBytes? bytes
  · cases h

end Rows

/-! ## Written and read -/

section Text

variable (c : Color Rat)

theorem toList_text : c.text.toList = '#' :: [c.red, c.green, c.blue, c.alpha].flatMap fun v => hexByte (byteOf v) := by
  rw [text, String.toList_ofList]

theorem isHex_text :
    IsHex c.text.toList ([c.red, c.green, c.blue, c.alpha].flatMap fun v => hexByte (byteOf v)) where
  text := .inr c.toList_text
  digits d hd := by
    obtain ⟨v, -, hd⟩ := List.mem_flatMap.mp hd
    exact isHexDigit_of_mem_hexByte (byteOf_le v) d hd
  length := by simp [hexByte]

/-- The colour whose channels are the nearest whole numbers of 255ths. -/
def nearest : Color Rat :=
  ⟨channel (byteOf c.red), channel (byteOf c.green), channel (byteOf c.blue), channel (byteOf c.alpha)⟩

@[simp] theorem text_nearest : c.nearest.text = c.text := by
  simp [text, nearest, byteOf_channel (byteOf_le _)]

theorem nearest_of_channels (whole : ∀ v ∈ [c.red, c.green, c.blue, c.alpha], ∃ k : Nat, k ≤ 255 ∧ v = k / 255) :
    c.nearest = c := by
  have same (v : Rat) (hv : v ∈ [c.red, c.green, c.blue, c.alpha]) : channel (byteOf v) = v := by
    obtain ⟨k, byte, rfl⟩ := whole v hv
    rw [← channel_rat, byteOf_channel byte]
  simp only [nearest, same c.red (by simp), same c.green (by simp), same c.blue (by simp), same c.alpha (by simp)]

/-- The text of a colour is read as the nearest colour with whole numbers of 255ths. -/
theorem ofHex?_text : ofHex? c.text.toList = some c.nearest := by
  have values : ([c.red, c.green, c.blue, c.alpha].flatMap fun v => hexByte (byteOf v)).map hexValue =
      [c.red, c.green, c.blue, c.alpha].flatMap fun v => [byteOf v / 16, byteOf v % 16] := by
    rw [List.map_flatMap]
    simp only [map_hexValue_hexByte (byteOf_le _)]
  simp only [ofHex?, c.isHex_text.hexDigits, List.all_eq_true.mpr c.isHex_text.digits, if_true, values]
  simp only [List.flatMap_cons, List.flatMap_nil, List.cons_append, List.nil_append, hexBytes?, Nat.div_add_mod]
  rfl

theorem readColor_text (type : ValueType) : readColor type c.text.toList = .ok (.color c.nearest) := by
  have bare : Text.isQuoted c.text.toList = false := by
    rw [c.toList_text]
    exact Text.not_isQuoted_cons (by decide) (by decide) _
  have word : c.text.toList ∈ TokenKind.hexColor.pattern := by
    refine Pattern.mem_literal_mul.mpr ⟨_, Pattern.mem_between_oneOf.mpr ⟨?_, ?_, c.isHex_text.digits⟩, c.toList_text⟩
    · simp [hexByte]
    · simp [hexByte]
  exact (readColor_eq_ok_iff bare).mpr
    ⟨.simple c.nearest, _, Lexer.consists_of_mem_pattern word, .simple c.ofHex?_text, rfl⟩

end Text

/-! ## Read and written -/

section Read

variable {cs ds : List Char}

/-- The byte of two digits. -/
def pair (high low : Char) : Nat :=
  16 * hexValue high + hexValue low

theorem double (d : Char) : 17 * hexValue d = pair d d := by
  unfold pair
  omega

theorem text_of_pairs {r r' g g' b b' a a' : Char} (digits : ∀ d ∈ [r, r', g, g', b, b', a, a'], isHexDigit d = true) :
    (⟨channel (pair r r'), channel (pair g g'), channel (pair b b'), channel (pair a a')⟩ : Color Rat).text.toList =
      '#' :: [r, r', g, g', b, b', a, a'].map Char.toLower := by
  have spelled (d e : Char) (hd : d ∈ [r, r', g, g', b, b', a, a']) (he : e ∈ [r, r', g, g', b, b', a, a']) :
      hexByte (byteOf (channel (pair d e) : Rat)) = [d.toLower, e.toLower] := by
    have high := hexValue_le (digits d hd)
    have low := hexValue_le (digits e he)
    rw [byteOf_channel (by unfold pair; omega), pair, hexByte_hexValue (digits d hd) (digits e he)]
  rw [toList_text]
  simp only [List.flatMap_cons, List.flatMap_nil, spelled r r' (by simp) (by simp), spelled g g' (by simp) (by simp),
    spelled b b' (by simp) (by simp), spelled a a' (by simp) (by simp)]
  rfl

theorem layout (length : ds.length ∈ [3, 4, 6, 8]) :
    (∃ r g b, ds = [r, g, b]) ∨ (∃ r g b a, ds = [r, g, b, a]) ∨ (∃ r r' g g' b b', ds = [r, r', g, g', b, b']) ∨
      ∃ r r' g g' b b' a a', ds = [r, r', g, g', b, b', a, a'] := by
  simp only [List.mem_cons, List.not_mem_nil, or_false] at length
  rcases length with three | four | six | eight
  · match ds, three with
    | [r, g, b], _ => exact .inl ⟨_, _, _, rfl⟩
  · match ds, four with
    | [r, g, b, a], _ => exact .inr (.inl ⟨_, _, _, _, rfl⟩)
  · match ds, six with
    | [r, r', g, g', b, b'], _ => exact .inr (.inr (.inl ⟨_, _, _, _, _, _, rfl⟩))
  · match ds, eight with
    | [r, r', g, g', b, b', a, a'], _ => exact .inr (.inr (.inr ⟨_, _, _, _, _, _, _, _, rfl⟩))

/-- A row of digits is read, and its colour written as the eight digits that it is short for. -/
theorem text_of_isHex (hex : IsHex cs ds) :
    ∃ c : Color Rat, ofHex? cs = some c ∧ c.text.toList = '#' :: (longForm ds).map Char.toLower := by
  have digits := hex.digits
  have mark : isHexDigit 'f' = true := by decide
  have full : (Scalar.one : Rat) = channel (pair 'f' 'f') := by decide +kernel
  simp only [ofHex?, hex.hexDigits, List.all_eq_true.mpr digits, if_true]
  obtain ⟨r, g, b, rfl⟩ | ⟨r, g, b, a, rfl⟩ | ⟨r, r', g, g', b, b', rfl⟩ | ⟨r, r', g, g', b, b', a, a', rfl⟩ :=
    layout hex.length
  · refine ⟨_, rfl, ?_⟩
    rw [ofBytes, full, double, double, double]
    exact text_of_pairs (by simpa [mark] using digits)
  · refine ⟨_, rfl, ?_⟩
    rw [double, double, double, double]
    exact text_of_pairs (by simpa using digits)
  · refine ⟨_, rfl, ?_⟩
    rw [ofBytes, full]
    exact text_of_pairs (by simpa [mark] using digits)
  · exact ⟨_, rfl, text_of_pairs digits⟩

theorem exists_ofHex?_iff : (∃ c : Color Rat, ofHex? cs = some c) ↔ ∃ ds, IsHex cs ds := by
  constructor
  · rintro ⟨c, read⟩
    exact ⟨_, isHex_of_ofHex? read⟩
  · rintro ⟨ds, hex⟩
    obtain ⟨c, read, -⟩ := text_of_isHex hex
    exact ⟨c, read⟩

/-- **Colours are written in one way.** The text of any colour is read as a colour with the same text, and as the same
colour if its channels are whole numbers of 255ths. What is read as a row of digits are three, four, six or eight of
them with or without a number sign, and the colour of a row is written as the eight digits that the row is short for, in
lower case. -/
theorem text_canonical :
    (∀ c : Color Rat, ∃ d : Color Rat, ofHex? c.text.toList = some d ∧
      (∀ type, readColor type c.text.toList = .ok (.color d)) ∧ d.text = c.text ∧
      ((∀ v ∈ [c.red, c.green, c.blue, c.alpha], ∃ k : Nat, k ≤ 255 ∧ v = k / 255) → d = c)) ∧
    (∀ cs, (∃ c : Color Rat, ofHex? cs = some c) ↔ ∃ ds, IsHex cs ds) ∧
    ∀ cs ds, IsHex cs ds →
      ∃ c : Color Rat, ofHex? cs = some c ∧ c.text.toList = '#' :: (longForm ds).map Char.toLower := by
  refine ⟨fun c => ⟨c.nearest, c.ofHex?_text, c.readColor_text, c.text_nearest, c.nearest_of_channels⟩,
    fun cs => exists_ofHex?_iff, fun cs ds => text_of_isHex⟩

/-- A channel out of range is cut off, and one between two bytes is rounded; short digits are doubled. -/
theorem text_canonical_aBc :
    (⟨-1, 1 / 3, 2, 1⟩ : Color Rat).text = "#0055ffff" ∧ (⟨0, 1 / 2, 1, 1⟩ : Color Rat).text = "#0080ffff" ∧
      ofHex? "#0080ffff".toList = some (⟨0, 128 / 255, 1, 1⟩ : Color Rat) ∧
      (∀ v ∈ [(0 : Rat), 128 / 255, 1, 1], ∃ k : Nat, k ≤ 255 ∧ v = k / 255) ∧
      (∃ d : Color Rat, ofHex? (⟨0, 128 / 255, 1, 1⟩ : Color Rat).text.toList = some d ∧ d = ⟨0, 128 / 255, 1, 1⟩) ∧
      IsHex "aBc".toList "aBc".toList ∧
      (∃ c : Color Rat, ofHex? "aBc".toList = some c ∧ c.text.toList = "#aabbccff".toList) ∧
      ¬∃ c : Color Rat, ofHex? "##abc".toList = some c := by
  have bytes : ∀ v ∈ [(0 : Rat), 128 / 255, 1, 1], ∃ k : Nat, k ≤ 255 ∧ v = k / 255 := by
    simp only [List.forall_mem_cons]
    exact ⟨⟨0, by norm_num⟩, ⟨128, by norm_num⟩, ⟨255, by norm_num⟩, ⟨255, by norm_num⟩, List.forall_mem_nil _⟩
  have short : IsHex "aBc".toList "aBc".toList := ⟨.inl rfl, List.all_eq_true.mp rfl, by decide⟩
  obtain ⟨colors, rows, texts⟩ := text_canonical
  refine ⟨by decide +kernel, by decide +kernel, by decide +kernel, bytes, ?_, short, texts _ _ short, ?_⟩
  · obtain ⟨d, read, -, -, same⟩ := colors ⟨0, 128 / 255, 1, 1⟩
    exact ⟨d, read, same bytes⟩
  · rintro ⟨c, read⟩
    obtain ⟨ds, twice⟩ := (rows _).mp ⟨c, read⟩
    exact absurd (List.all_eq_true.mpr twice.digits) (by rw [← twice.hexDigits]; decide)

end Read

end Stylebook.Color
