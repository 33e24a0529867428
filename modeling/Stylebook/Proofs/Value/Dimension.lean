import Stylebook.Proofs.Token.Words
import Stylebook.Scalar.Double
import Stylebook.Scalar.Rational
import Stylebook.Value.Dimension

/-!
# Numbers and dimensions have a value

A dimension is taken apart by looking for its first character that is no digit and no point. This is where the lexer saw
its unit start, so that the number in front of it is the text of a number by itself (`splitDimension?_append`). And every
such text is a finite numeral (`Decimal.Numeral.exists_read?`), so that it has a value as a double.

`Amount cs x` puts both together for the places where a length is expected.
-/

set_option autoImplicit false

namespace Stylebook

open Pattern

variable {α : Type} [Scalar α]

/-! ## Taking dimensions apart -/

theorem isNumberChar_of_mem_figure {f : List Char} (h : f ∈ figure) : ∀ c ∈ f, isNumberChar c = true := by
  obtain ⟨ds, fs, rfl, -, digits, fraction⟩ := mem_figure.mp h
  intro c hc
  rcases List.mem_append.mp hc with hc | hc
  · simp [isNumberChar, digits c hc]
  · rcases fraction with rfl | hfs
    · cases hc
    · obtain ⟨es, rfl, -, digits⟩ := mem_fraction.mp hfs
      rcases List.mem_cons.mp hc with rfl | hc
      · rfl
      · simp [isNumberChar, digits c hc]

theorem exists_digit_of_figure {f : List Char} (h : f ∈ figure) : ∃ d rest, f = d :: rest ∧ d.isDigit = true := by
  obtain ⟨ds, fs, rfl, filled, digits, -⟩ := mem_figure.mp h
  obtain ⟨d, ds, rfl⟩ := List.exists_cons_of_ne_nil filled
  exact ⟨d, ds ++ fs, rfl, digits d List.mem_cons_self⟩

/-- The sign comes off in front of a figure, whatever stands behind it. -/
theorem splitSign_append {s f : List Char} (hs : s ∈ sign) (hf : f ∈ figure) (rest : List Char) :
    splitSign (s ++ (f ++ rest)) = (s, f ++ rest) := by
  obtain ⟨d, behind, rfl, digit⟩ := exists_digit_of_figure hf
  rcases mem_sign.mp hs with rfl | rfl | rfl
  · have unsigned : ¬(d = '-' ∨ d = '+') := by
      rintro (rfl | rfl) <;> cases digit
    exact if_neg unsigned
  · rfl
  · rfl

/-- A dimension is taken apart between its number and its unit. -/
theorem splitDimension?_append {v u : List Char} (number : v ∈ TokenKind.number.pattern) (hu : u ∈ unit) :
    (splitDimension? (v ++ u) : Option (α × List Char)) = (Scalar.read? v).map (·, u) := by
  obtain ⟨s, hs, f, hf, rfl⟩ := Language.mem_mul.mp number
  obtain ⟨c, w, rfl, stop⟩ := Lexer.exists_cons_of_unit hu
  have all := isNumberChar_of_mem_figure hf
  have other : isNumberChar c = false := by simp [isNumberChar, stop.1, stop.2]
  have sign := splitSign_append hs hf (c :: w)
  have whole : (f ++ c :: w).takeWhile isNumberChar = f := by
    rw [List.takeWhile_append_of_pos all, List.takeWhile_cons_of_neg (by simp [other]), List.append_nil]
  have rest : (f ++ c :: w).dropWhile isNumberChar = c :: w := by
    rw [List.dropWhile_append_of_pos all, List.dropWhile_cons_of_neg (by simp [other])]
  have filled : (s ++ f).isEmpty = false := by
    obtain ⟨d, behind, rfl, -⟩ := exists_digit_of_figure hf
    simp
  rw [List.append_assoc]
  simp only [splitDimension?, sign, whole, rest, filled]
  rfl

theorem dimension_of_number {v u : List Char} (number : v ∈ TokenKind.number.pattern) (hu : u ∈ unit) :
    v ++ u ∈ TokenKind.dimension.pattern := by
  obtain ⟨s, hs, f, hf, rfl⟩ := Language.mem_mul.mp number
  rw [List.append_assoc]
  exact Language.append_mem_mul hs (Language.append_mem_mul hf hu)

theorem exists_number_of_dimension {w : List Char} (h : w ∈ TokenKind.dimension.pattern) :
    ∃ v ∈ TokenKind.number.pattern, ∃ u ∈ unit, w = v ++ u := by
  obtain ⟨s, hs, rest, hrest, rfl⟩ := Language.mem_mul.mp h
  obtain ⟨f, hf, u, hu, rfl⟩ := Language.mem_mul.mp hrest
  exact ⟨s ++ f, Language.append_mem_mul hs hf, u, hu, (List.append_assoc s f u).symm⟩

/-- The names of length units are units. -/
theorem unit_of_isLengthUnit {u : List Char} (length : isLengthUnit u = true) : u ∈ unit := by
  have letters (name : List Char) (filled : name ≠ []) (alpha : ∀ c ∈ name, c.isAlpha = true)
      (lower : Text.asciiLower name = name) (same : Text.sameIgnoringCase u name = true) : u ∈ unit := by
    have equal : Text.asciiLower u = name := lower ▸ beq_iff_eq.mp same
    refine mem_unit.mpr (.inr ⟨?_, ?_⟩)
    · rintro rfl
      exact filled equal.symm
    · intro c hc
      apply Lexer.isAlpha_of_toLower
      apply alpha
      rw [← equal]
      exact List.mem_map_of_mem hc
  rcases (Bool.or_eq_true _ _).mp length with points | pixels
  · exact letters _ (by simp) (List.all_eq_true.mp rfl) rfl points
  · exact letters _ (by simp) (List.all_eq_true.mp rfl) rfl pixels

/-! ## Reading numbers -/

namespace Decimal

theorem magnitude?_of_figure {f : List Char} (h : f ∈ figure) :
    ∃ digits exponent, magnitude? f = some (.finite digits exponent) := by
  obtain ⟨ds, fs, rfl, filled, digits, fraction⟩ := mem_figure.mp h
  rcases fraction with rfl | hfs
  · have whole : ds.takeWhile Char.isDigit = ds := List.takeWhile_eq_self_iff.mpr digits
    have rest : ds.dropWhile Char.isDigit = [] := List.dropWhile_eq_nil_iff.mpr digits
    refine ⟨ofDigits ds, 0, ?_⟩
    simp [magnitude?, whole, rest, filled, exponent?]
  · obtain ⟨es, rfl, filled', digits'⟩ := mem_fraction.mp hfs
    have whole : (ds ++ '.' :: es).takeWhile Char.isDigit = ds := by
      rw [List.takeWhile_append_of_pos digits, List.takeWhile_cons_of_neg (by decide), List.append_nil]
    have rest : (ds ++ '.' :: es).dropWhile Char.isDigit = '.' :: es := by
      rw [List.dropWhile_append_of_pos digits, List.dropWhile_cons_of_neg (by decide)]
    have all : es.takeWhile Char.isDigit = es := List.takeWhile_eq_self_iff.mpr digits'
    have none : es.dropWhile Char.isDigit = [] := List.dropWhile_eq_nil_iff.mpr digits'
    refine ⟨ofDigits (ds ++ es), -es.length, ?_⟩
    simp [magnitude?, whole, rest, all, none, filled, exponent?]

theorem takeSign_append {s f : List Char} (hs : s ∈ sign) (hf : f ∈ figure) : ∃ negative, takeSign (s ++ f) = (negative, f) := by
  obtain ⟨d, behind, rfl, digit⟩ := exists_digit_of_figure hf
  rcases mem_sign.mp hs with rfl | rfl | rfl
  · refine ⟨false, ?_⟩
    have plus : d ≠ '+' := by
      rintro rfl
      cases digit
    have minus : d ≠ '-' := by
      rintro rfl
      cases digit
    simp [takeSign, plus, minus]
  · exact ⟨false, rfl⟩
  · exact ⟨true, rfl⟩

/-- Every number is a finite numeral. -/
theorem Numeral.exists_read? {v : List Char} (number : v ∈ TokenKind.number.pattern) :
    ∃ negative digits exponent, read? v = some ⟨negative, .finite digits exponent⟩ := by
  obtain ⟨s, hs, f, hf, rfl⟩ := Language.mem_mul.mp number
  obtain ⟨negative, sign⟩ := takeSign_append hs hf
  obtain ⟨digits, exponent, magnitude⟩ := magnitude?_of_figure hf
  exact ⟨negative, digits, exponent, by simp [read?, sign, magnitude]⟩

end Decimal

/-- As a double, every number has a value. -/
theorem Scalar.exists_read?_double {v : List Char} (number : v ∈ TokenKind.number.pattern) :
    ∃ x : Float, read? v = some x := by
  obtain ⟨negative, digits, exponent, numeral⟩ := Decimal.Numeral.exists_read? number
  refine ⟨Decimal.Numeral.toFloat ⟨negative, .finite digits exponent⟩, ?_⟩
  simp [read?, numeral]

/-- Scalars in which every number has a value. -/
class Scalar.ReadsNumbers (α : Type) [Scalar α] : Prop where
  exists_read? {v : List Char} (number : v ∈ TokenKind.number.pattern) : ∃ x : α, read? v = some x

instance : Scalar.ReadsNumbers Float where
  exists_read? := Scalar.exists_read?_double

instance : Scalar.ReadsNumbers Rat where
  exists_read? number := by
    obtain ⟨negative, digits, exponent, numeral⟩ := Decimal.Numeral.exists_read? number
    refine ⟨if negative then -(digits * 10 ^ exponent) else digits * 10 ^ exponent, ?_⟩
    simp [Scalar.read?, numeral, Decimal.Numeral.toRat?]

/-! ## Words that stand for numbers -/

@[simp] theorem Token.number?_word (t : Token) : (t.word.token.number? : Option α) = t.number? := rfl

@[simp] theorem Token.looseNumber?_word (t : Token) : (t.word.token.looseNumber? : Option α) = t.looseNumber? := rfl

theorem Token.looseNumber?_of_number? {t : Token} {x : α} (h : t.number? = some x) : t.looseNumber? = some x := by
  cases kind : t.kind with
  | dimension =>
    simp only [Token.number?, kind] at h
    split at h
    · rename_i n unit split
      obtain ⟨-, rfl⟩ : isLengthUnit unit = true ∧ n = x := by simpa using h
      simp [Token.looseNumber?, kind, split]
    · cases h
  | _ => simpa [Token.looseNumber?, kind] using h

/-! ## Lengths -/

/-- The text of a number, alone or in points or pixels, with that number. -/
inductive Amount : List Char → α → Prop
  | number {v : List Char} {x : α} (figure : v ∈ TokenKind.number.pattern) (value : Scalar.read? v = some x) :
      Amount v x
  | length {v u : List Char} {x : α} (figure : v ∈ TokenKind.number.pattern) (value : Scalar.read? v = some x)
      (unit : isLengthUnit u = true) : Amount (v ++ u) x

/-- An amount is one word, and read as its number. -/
theorem Amount.word {cs : List Char} {x : α} (amount : Amount cs x) :
    ∃ kind, cs ∈ kind.pattern ∧ (Word.mk kind cs).token.number? = some x := by
  cases amount with
  | number figure value => exact ⟨.number, figure, value⟩
  | length figure value unit =>
    refine ⟨.dimension, dimension_of_number figure (unit_of_isLengthUnit unit), ?_⟩
    simp [Word.token, Token.number?, splitDimension?_append figure (unit_of_isLengthUnit unit), value, unit]

/-- The word is a number, or a dimension in points or pixels, with this text of the number. -/
inductive IsNumber : Word → List Char → Prop
  | number {v : List Char} (figure : v ∈ TokenKind.number.pattern) : IsNumber ⟨.number, v⟩ v
  | length {v u : List Char} (figure : v ∈ TokenKind.number.pattern) (unit : isLengthUnit u = true) :
      IsNumber ⟨.dimension, v ++ u⟩ v

theorem IsNumber.figure {w : Word} {v : List Char} (h : IsNumber w v) : v ∈ TokenKind.number.pattern := by
  cases h <;> assumption

/-- Such a word is read as its number. -/
theorem IsNumber.number? {w : Word} {v : List Char} (h : IsNumber w v) :
    (w.token.number? : Option α) = Scalar.read? v := by
  cases h with
  | number figure => rfl
  | length figure unit =>
    rw [Token.number?, Word.kind_token, Word.chars_token, splitDimension?_append figure (unit_of_isLengthUnit unit)]
    cases (Scalar.read? v : Option α) with
    | none => rfl
    | some x => simp [unit]

/-- No other word is read as a number. -/
theorem exists_isNumber {w : Word} {x : α} (word : w.chars ∈ w.kind.pattern) (value : w.token.number? = some x) :
    ∃ v, Scalar.read? v = some x ∧ IsNumber w v := by
  obtain ⟨kind, cs⟩ := w
  cases kind with
  | number => exact ⟨cs, value, .number word⟩
  | dimension =>
    obtain ⟨v, figure, u, hu, rfl⟩ := exists_number_of_dimension word
    simp only [Token.number?, Word.kind_token, Word.chars_token, splitDimension?_append figure hu] at value
    cases read : (Scalar.read? v : Option α) with
    | none => simp [read] at value
    | some y =>
      obtain ⟨unit, rfl⟩ : isLengthUnit u = true ∧ y = x := by simpa [read] using value
      exact ⟨v, read, .length figure unit⟩
  | _ => cases value

/-! ## Numbers in any unit -/

/-- The text of a number, alone or in any unit, with that number. -/
inductive Quantity : List Char → α → Prop
  | number {v : List Char} {x : α} (figure : v ∈ TokenKind.number.pattern) (value : Scalar.read? v = some x) :
      Quantity v x
  | dimension {v u : List Char} {x : α} (figure : v ∈ TokenKind.number.pattern) (value : Scalar.read? v = some x)
      (unit : u ∈ unit) : Quantity (v ++ u) x

/-- A quantity is one word, and read as its number where units are dropped. -/
theorem Quantity.word {cs : List Char} {x : α} (quantity : Quantity cs x) :
    ∃ kind, cs ∈ kind.pattern ∧ (Word.mk kind cs).token.looseNumber? = some x := by
  cases quantity with
  | number figure value => exact ⟨.number, figure, value⟩
  | dimension figure value unit =>
    refine ⟨.dimension, dimension_of_number figure unit, ?_⟩
    simp [Word.token, Token.looseNumber?, splitDimension?_append figure unit, value]

/-- The word is a number, or a dimension in any unit, with this text of the number. -/
inductive IsQuantity : Word → List Char → Prop
  | number {v : List Char} (figure : v ∈ TokenKind.number.pattern) : IsQuantity ⟨.number, v⟩ v
  | dimension {v u : List Char} (figure : v ∈ TokenKind.number.pattern) (unit : u ∈ unit) :
      IsQuantity ⟨.dimension, v ++ u⟩ v

theorem IsQuantity.figure {w : Word} {v : List Char} (h : IsQuantity w v) : v ∈ TokenKind.number.pattern := by
  cases h <;> assumption

/-- Such a word is read as its number where units are dropped. -/
theorem IsQuantity.looseNumber? {w : Word} {v : List Char} (h : IsQuantity w v) :
    (w.token.looseNumber? : Option α) = Scalar.read? v := by
  cases h with
  | number figure => rfl
  | dimension figure unit =>
    simp only [Token.looseNumber?, Word.kind_token, Word.chars_token, splitDimension?_append figure unit]
    cases (Scalar.read? v : Option α) <;> rfl

/-- No other word is read as a number there. -/
theorem exists_isQuantity {w : Word} {x : α} (word : w.chars ∈ w.kind.pattern)
    (value : w.token.looseNumber? = some x) : ∃ v, Scalar.read? v = some x ∧ IsQuantity w v := by
  obtain ⟨kind, cs⟩ := w
  cases kind with
  | number => exact ⟨cs, value, .number word⟩
  | dimension =>
    obtain ⟨v, figure, u, hu, rfl⟩ := exists_number_of_dimension word
    simp only [Token.looseNumber?, Word.kind_token, Word.chars_token, splitDimension?_append figure hu] at value
    cases read : (Scalar.read? v : Option α) with
    | none => simp [read] at value
    | some y =>
      obtain rfl : y = x := by simpa [read] using value
      exact ⟨v, read, .dimension figure hu⟩
  | _ => cases value

/-- All numbers and dimensions are quantities. -/
theorem exists_quantity_iff [Scalar.ReadsNumbers α] {cs : List Char} :
    (∃ x : α, Quantity cs x) ↔ cs ∈ TokenKind.number.pattern ∨ cs ∈ TokenKind.dimension.pattern := by
  constructor
  · rintro ⟨x, quantity⟩
    cases quantity with
    | number figure => exact .inl figure
    | dimension figure _ unit => exact .inr (dimension_of_number figure unit)
  · rintro (figure | dimension)
    · obtain ⟨x, value⟩ := Scalar.ReadsNumbers.exists_read? (α := α) figure
      exact ⟨x, .number figure value⟩
    · obtain ⟨v, figure, u, unit, rfl⟩ := exists_number_of_dimension dimension
      obtain ⟨x, value⟩ := Scalar.ReadsNumbers.exists_read? (α := α) figure
      exact ⟨x, .dimension figure value unit⟩

end Stylebook
