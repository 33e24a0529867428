import Mathlib.Data.List.DropRight
import Stylebook.Proofs.Value.Displayed

/-!
# The lexer and the readers of numbers agree

A dimension is found twice. The lexer sees a number that goes on with a unit; the readers of numbers are given all of it
and look for the unit again, from the front, by the first character that is no digit and no point. Here the unit is found
a third time, without a look at the number: it is the percent sign or the row of letters that the text ends with
(`unitOf`). Since the text of every number ends with a digit, all three find the same place (`unitOf_append`).

So the readers fail at no token that is a number for the lexer: what is in front of the unit is the text of a number by
itself, with a value. Which tokens they take, and that they take one or none, is `Lexer.numbers_read`.
-/

set_option autoImplicit false

namespace Stylebook

open Pattern

variable {α : Type} [Scalar α]

/-! ## Units by the end of the text -/

/-- The percent sign at the end of a text, or the letters there. -/
def unitOf (cs : List Char) : List Char :=
  if cs.getLast? = some '%' then ['%'] else cs.rtakeWhile Char.isAlpha

/-- The text in front of its unit. -/
def numeralOf (cs : List Char) : List Char :=
  cs.take (cs.length - (unitOf cs).length)

/-- The text of a number ends with a digit. -/
theorem exists_digit_concat {v : List Char} (number : v ∈ TokenKind.number.pattern) :
    ∃ front d, v = front ++ [d] ∧ d.isDigit = true := by
  have last {ds : List Char} (filled : ds ≠ []) (digits : ∀ c ∈ ds, c.isDigit = true) (front : List Char) :
      ∃ front' d, front ++ ds = front' ++ [d] ∧ d.isDigit = true := by
    refine ⟨front ++ ds.dropLast, ds.getLast filled, ?_, digits _ (List.getLast_mem filled)⟩
    rw [List.append_assoc, List.dropLast_append_getLast]
  obtain ⟨s, -, f, hf, rfl⟩ := Language.mem_mul.mp number
  obtain ⟨ds, fs, rfl, filled, digits, fraction⟩ := mem_figure.mp hf
  rcases fraction with rfl | hfs
  · rw [List.append_nil]
    exact last filled digits s
  · obtain ⟨es, rfl, filled, digits⟩ := mem_fraction.mp hfs
    have whole := last filled digits (s ++ (ds ++ ['.']))
    simpa using whole

theorem not_isAlpha_of_isDigit {d : Char} (digit : d.isDigit = true) : d.isAlpha = false := by
  cases letter : d.isAlpha with
  | false => rfl
  | true =>
    have none := Lexer.isDigit_of_isAlpha letter
    rw [digit] at none
    cases none

/-- The text of a number has no unit. -/
theorem unitOf_number {v : List Char} (number : v ∈ TokenKind.number.pattern) : unitOf v = [] := by
  obtain ⟨front, d, rfl, digit⟩ := exists_digit_concat number
  have percent : d ≠ '%' := by
    rintro rfl
    cases digit
  rw [unitOf, List.getLast?_concat, if_neg (by simpa using percent)]
  apply List.rtakeWhile_concat_neg
  simp [not_isAlpha_of_isDigit digit]

/-- A number with a unit behind it has that unit. -/
theorem unitOf_append {v u : List Char} (number : v ∈ TokenKind.number.pattern) (hu : u ∈ unit) :
    unitOf (v ++ u) = u := by
  rcases mem_unit.mp hu with rfl | ⟨filled, letters⟩
  · rw [unitOf, List.getLast?_concat, if_pos rfl]
  · have percent : (v ++ u).getLast? ≠ some '%' := by
      intro last
      rw [List.getLast?_append_of_ne_nil _ filled] at last
      cases letters '%' (List.mem_of_getLast? last)
    obtain ⟨front, d, rfl, digit⟩ := exists_digit_concat number
    have stop : ¬d.isAlpha = true := by simp [not_isAlpha_of_isDigit digit]
    have all : ∀ c ∈ u.reverse, c.isAlpha = true := fun c hc => letters c (List.mem_reverse.mp hc)
    have backwards : (front ++ [d] ++ u).reverse = u.reverse ++ d :: front.reverse := by simp
    rw [unitOf, if_neg percent, List.rtakeWhile, backwards, List.takeWhile_append_of_pos all,
      List.takeWhile_cons_of_neg stop, List.append_nil, List.reverse_reverse]

theorem numeralOf_number {v : List Char} (number : v ∈ TokenKind.number.pattern) : numeralOf v = v := by
  rw [numeralOf, unitOf_number number]
  exact List.take_length

theorem numeralOf_append {v u : List Char} (number : v ∈ TokenKind.number.pattern) (hu : u ∈ unit) :
    numeralOf (v ++ u) = v := by
  rw [numeralOf, unitOf_append number hu, List.length_append, Nat.add_sub_cancel, List.take_left]

/-! ## Words that are numbers -/

theorem IsQuantity.numeralOf {w : Word} {v : List Char} (h : IsQuantity w v) : numeralOf w.chars = v := by
  cases h with
  | number figure => exact numeralOf_number figure
  | dimension figure unit => exact numeralOf_append figure unit

/-- Numbers and dimensions are quantities, and no other words are. -/
theorem isQuantity_iff {w : Word} (word : w.chars ∈ w.kind.pattern) :
    IsQuantity w (numeralOf w.chars) ↔ w.kind = .number ∨ w.kind = .dimension := by
  constructor
  · intro quantity
    generalize numeralOf w.chars = v at quantity
    cases quantity with
    | number => exact .inl rfl
    | dimension => exact .inr rfl
  · intro kinds
    obtain ⟨kind, cs⟩ := w
    rcases kinds with rfl | rfl
    · rw [numeralOf_number word]
      exact .number word
    · obtain ⟨v, figure, u, hu, rfl⟩ := exists_number_of_dimension word
      rw [numeralOf_append figure hu]
      exact .dimension figure hu

theorem IsNumber.isQuantity {w : Word} {v : List Char} (h : IsNumber w v) : IsQuantity w v := by
  cases h with
  | number figure => exact .number figure
  | length figure unit => exact .dimension figure (unit_of_isLengthUnit unit)

/-- Numbers and dimensions in points or pixels are numbers, and no other words are. -/
theorem isNumber_iff {w : Word} (word : w.chars ∈ w.kind.pattern) :
    IsNumber w (numeralOf w.chars) ↔
      w.kind = .number ∨ w.kind = .dimension ∧ isLengthUnit (unitOf w.chars) = true := by
  constructor
  · intro number
    generalize numeralOf w.chars = v at number
    cases number with
    | number => exact .inl rfl
    | length figure unit =>
      refine .inr ⟨rfl, ?_⟩
      rw [unitOf_append figure (unit_of_isLengthUnit unit)]
      exact unit
  · intro kinds
    obtain ⟨kind, cs⟩ := w
    rcases kinds with rfl | ⟨rfl, length⟩
    · rw [numeralOf_number word]
      exact .number word
    · obtain ⟨v, figure, u, hu, rfl⟩ := exists_number_of_dimension word
      rw [unitOf_append figure hu] at length
      rw [numeralOf_append figure hu]
      exact .length figure length

/-! ## Steps that take one token or none -/

namespace Reading

/-- If the next token is `accepted`, the step takes it alone, and its number is that of the text in front of the unit.
Otherwise, also where there is no token, the step fails and takes nothing. -/
def TakesNumber (r : Reading α) (accepted : Token → Prop) (ts : List Token) : Prop :=
  (∀ t rest, ts = t :: rest → accepted t → ∃ n, Scalar.read? (numeralOf t.chars) = some n ∧ r ts = (.ok n, rest)) ∧
  ((∀ t ∈ ts.head?, ¬accepted t) → ∃ e, r ts = (.error e, ts))

theorem takesNumber_item {value? : Token → Option α} {accepted : Token → Prop} {ts : List Token}
    (value : ∀ t ∈ ts.head?, accepted t → ∃ n, Scalar.read? (numeralOf t.chars) = some n ∧ value? t = some n)
    (none : ∀ t ∈ ts.head?, ¬accepted t → value? t = none) : TakesNumber (item value?) accepted ts := by
  constructor
  · rintro t rest rfl here
    obtain ⟨n, read, value⟩ := value t rfl here
    exact ⟨n, read, item_cons value rest⟩
  · intro other
    cases ts with
    | nil => exact ⟨_, rfl⟩
    | cons t rest =>
      refine ⟨.expectedNumber (some t.text), ?_⟩
      rw [item, none t rfl (other t rfl)]

/-- If the words that stand for a number are those with a numeral in front of a unit, a step that takes the tokens with a
number takes the tokens that are such words. -/
theorem takesNumber_of_iff {value? : Token → Option α} {accepted : Token → Prop} {stands : Word → List Char → Prop}
    {cs : List Char} {ts : List Token} (suffix : ts <:+ Lexer.tokens cs)
    (numeral : ∀ w v, stands w v → numeralOf w.chars = v)
    (read : ∀ t v, stands t.word v → ∃ n, Scalar.read? v = some n ∧ value? t = some n)
    (known : ∀ t n, t.chars ∈ t.kind.pattern → value? t = some n → ∃ v, stands t.word v)
    (accepts : ∀ t, t.chars ∈ t.kind.pattern → (stands t.word (numeralOf t.chars) ↔ accepted t)) :
    TakesNumber (item value?) accepted ts := by
  have spelled : ∀ t ∈ ts.head?, t.chars ∈ t.kind.pattern := fun t here =>
    Lexer.mem_pattern_of_mem_tokens (suffix.subset (List.mem_of_mem_head? here))
  apply takesNumber_item
  · intro t here kinds
    exact read t _ ((accepts t (spelled t here)).mpr kinds)
  · intro t here other
    by_contra some
    obtain ⟨n, value⟩ := Option.ne_none_iff_exists'.mp some
    obtain ⟨v, word⟩ := known t n (spelled t here) value
    have same : numeralOf t.chars = v := numeral t.word v word
    rw [← same] at word
    exact other ((accepts t (spelled t here)).mp word)

section Numbers

variable [Scalar.ReadsNumbers α] {cs : List Char} {ts : List Token}

theorem takesNumber_looseNumber (suffix : ts <:+ Lexer.tokens cs) :
    TakesNumber (α := α) looseNumber (fun t => t.kind = .number ∨ t.kind = .dimension) ts := by
  apply takesNumber_of_iff suffix fun w v (quantity : IsQuantity w v) => quantity.numeralOf
  · intro t v quantity
    obtain ⟨n, read⟩ := Scalar.ReadsNumbers.exists_read? (α := α) quantity.figure
    refine ⟨n, read, ?_⟩
    rw [← Token.looseNumber?_word, quantity.looseNumber?, read]
  · intro t n spelled value
    obtain ⟨v, -, quantity⟩ := exists_isQuantity (w := t.word) spelled value
    exact ⟨v, quantity⟩
  · intro t spelled
    exact isQuantity_iff (w := t.word) spelled

theorem takesNumber_number (suffix : ts <:+ Lexer.tokens cs) :
    TakesNumber (α := α) number
      (fun t => t.kind = .number ∨ t.kind = .dimension ∧ isLengthUnit (unitOf t.chars) = true) ts := by
  apply takesNumber_of_iff suffix fun w v (number : IsNumber w v) => number.isQuantity.numeralOf
  · intro t v number
    obtain ⟨n, read⟩ := Scalar.ReadsNumbers.exists_read? (α := α) number.figure
    refine ⟨n, read, ?_⟩
    rw [← Token.number?_word, number.number?, read]
  · intro t n spelled value
    obtain ⟨v, -, number⟩ := exists_isNumber (w := t.word) spelled value
    exact ⟨v, number⟩
  · intro t spelled
    exact isNumber_iff (w := t.word) spelled

end Numbers

end Reading

/-! ## Dimensions and percentages -/

theorem takeRelativeNumber_cons (t : Token) (rest : List Token) :
    takeRelativeNumber (α := α) (t :: rest) =
      if Reading.isKeyword "auto" t = true ∨ t.kind = .star then (.ok .auto, rest)
      else if t.kind = .dimension ∧ t.chars.getLast? = some '%' then takePercentage t (t :: rest)
      else Reading.continueWith (Reading.number (t :: rest)) fun n => pure (.absolute n) := by
  by_cases word : Reading.isKeyword "auto" t = true
  · simp [takeRelativeNumber, bind, Reading.eatKeyword, word, pure]
  by_cases star : t.kind = .star
  · simp [takeRelativeNumber, bind, Reading.eatKeyword, Reading.eat, word, star, pure]
  by_cases percent : t.kind = .dimension ∧ t.chars.getLast? = some '%'
  · simp [takeRelativeNumber, bind, Reading.eatKeyword, Reading.eat, Reading.peek?, word, percent]
  · simp [takeRelativeNumber, bind, Reading.eatKeyword, Reading.eat, Reading.peek?, word, star, percent, pure,
      Reading.continueWith]

variable [Scalar.ReadsNumbers α]

/-- A dimension is its number and its unit, and the number has a value. -/
theorem splitDimension?_of_pattern {w : List Char} (dimension : w ∈ TokenKind.dimension.pattern) :
    w = numeralOf w ++ unitOf w ∧ unitOf w ≠ [] ∧ numeralOf w ∈ TokenKind.number.pattern ∧
      ∃ n : α, Scalar.read? (numeralOf w) = some n ∧ splitDimension? w = some (n, unitOf w) := by
  obtain ⟨v, figure, u, hu, rfl⟩ := exists_number_of_dimension dimension
  obtain ⟨n, read⟩ := Scalar.ReadsNumbers.exists_read? (α := α) figure
  obtain ⟨c, behind, rfl, -⟩ := Lexer.exists_cons_of_unit hu
  rw [unitOf_append figure hu, numeralOf_append figure hu]
  refine ⟨rfl, List.cons_ne_nil _ _, figure, n, read, ?_⟩
  rw [splitDimension?_append figure hu, read, Option.map_some]

/-- No percentage that the lexer finds is malformed. -/
theorem takeRelativeNumber_ne_badPercentage {cs : List Char} {ts rest : List Token} (suffix : ts <:+ Lexer.tokens cs) :
    takeRelativeNumber (α := α) ts ≠ (.error .badPercentage, rest) := by
  intro failed
  cases ts with
  | nil => cases failed
  | cons t later =>
    rw [takeRelativeNumber_cons] at failed
    split at failed
    · cases failed
    split at failed
    · rename_i percent
      have spelled := Lexer.mem_pattern_of_mem_tokens (suffix.subset List.mem_cons_self)
      rw [percent.1] at spelled
      obtain ⟨-, -, -, n, -, taken⟩ := splitDimension?_of_pattern (α := α) spelled
      simp [takePercentage, bind, Reading.advance?, taken, pure] at failed
    · cases number : Reading.number (α := α) (t :: later) with
      | mk result left =>
        rw [number] at failed
        cases result with
        | ok n => cases failed
        | error e =>
          obtain ⟨-, found, rfl⟩ := Reading.item_eq_error number
          cases failed

theorem readRelativeNumber_ne_badPercentage (type type' : ValueType) (raw : List Char) :
    readRelativeNumber (α := α) type raw ≠ .error (.invalid type' .badPercentage) := by
  intro failed
  unfold readRelativeNumber at failed
  cases cut : Lexer.tokensStrict (Text.trimQuotes raw) with
  | error position => simp [Reading.whole, Reading.of, cut, Except.map] at failed
  | ok ts =>
    obtain ⟨-, rfl⟩ := Lexer.tokensStrict_eq_ok_iff.mp cut
    rw [Reading.whole_of_tokens cut] at failed
    cases taken : takeRelativeNumber (α := α) (Lexer.tokens (Text.trimQuotes raw)) with
    | mk result rest =>
      rw [taken] at failed
      cases result with
      | ok r => cases rest <;> cases failed
      | error e =>
        cases failed
        exact takeRelativeNumber_ne_badPercentage List.suffix_rfl taken

namespace Lexer

/-- **What the lexer finds to be a number is read as one.** A dimension is cut in front of the percent sign or the
letters that it ends with. What is left alone is a number for the lexer too, and its value is what is read. At any place
among the tokens of a text, loose numbers are the numbers and the dimensions, and numbers are the numbers and the
dimensions in points or pixels; either step takes this one token, and takes nothing where it fails. A relative number is
never refused for a malformed percentage. -/
theorem numbers_read (cs : List Char) :
    (∀ t ∈ tokens cs, t.kind = .dimension →
      t.chars = numeralOf t.chars ++ unitOf t.chars ∧ unitOf t.chars ≠ [] ∧
      tokensStrict (numeralOf t.chars) = .ok [⟨.number, numeralOf t.chars, 0, false⟩] ∧
      ∃ n : α, Scalar.read? (numeralOf t.chars) = some n ∧ splitDimension? t.chars = some (n, unitOf t.chars)) ∧
    (∀ ts, ts <:+ tokens cs →
      Reading.TakesNumber (α := α) Reading.looseNumber (fun t => t.kind = .number ∨ t.kind = .dimension) ts ∧
      Reading.TakesNumber (α := α) Reading.number
        (fun t => t.kind = .number ∨ t.kind = .dimension ∧ isLengthUnit (unitOf t.chars) = true) ts) ∧
    ∀ type type', readRelativeNumber (α := α) type cs ≠ .error (.invalid type' .badPercentage) := by
  refine ⟨?_, ?_, ?_⟩
  · intro t ht dimension
    have spelled := mem_pattern_of_mem_tokens ht
    rw [dimension] at spelled
    obtain ⟨whole, filled, figure, n, read, split⟩ := splitDimension?_of_pattern (α := α) spelled
    exact ⟨whole, filled, tokensStrict_of_mem_pattern figure, n, read, split⟩
  · intro ts suffix
    exact ⟨Reading.takesNumber_looseNumber suffix, Reading.takesNumber_number suffix⟩
  · intro type type'
    exact readRelativeNumber_ne_badPercentage type type' cs

/-- A dimension with a sign and a fraction, one in a letter case of its own, and a name, read as doubles. -/
theorem numbers_read_pixels :
    let cs := "-1.5em +2pX auto".toList
    let em : Token := ⟨.dimension, "-1.5em".toList, 0, false⟩
    let pixels : Token := ⟨.dimension, "+2pX".toList, 7, false⟩
    let auto : Token := ⟨.ident, "auto".toList, 12, false⟩
    tokens cs = [em, pixels, auto] ∧
      (∃ n : Float, Scalar.read? "-1.5".toList = some n ∧ splitDimension? em.chars = some (n, "em".toList)) ∧
      (∃ n : Float, Reading.looseNumber [em, pixels, auto] = (.ok n, [pixels, auto])) ∧
      (∃ e, Reading.number (α := Float) [em, pixels, auto] = (.error e, [em, pixels, auto])) ∧
      (∃ n : Float, Scalar.read? "+2".toList = some n ∧ Reading.number [pixels, auto] = (.ok n, [auto])) ∧
      ∃ e, Reading.looseNumber (α := Float) [auto] = (.error e, [auto]) := by
  intro cs em pixels auto
  have cut : tokens cs = [em, pixels, auto] := by decide +kernel
  obtain ⟨dimensions, steps, -⟩ := numbers_read (α := Float) cs
  rw [cut] at dimensions steps
  obtain ⟨-, -, -, n, read, split⟩ := dimensions em (by simp) rfl
  obtain ⟨loose, strict⟩ := steps [em, pixels, auto] List.suffix_rfl
  obtain ⟨-, length⟩ := steps [pixels, auto] (List.suffix_cons _ _)
  obtain ⟨name, -⟩ := steps [auto] ((List.suffix_cons _ _).trans (List.suffix_cons _ _))
  obtain ⟨x, -, taken⟩ := loose.1 em [pixels, auto] rfl (.inr rfl)
  obtain ⟨y, value, taken'⟩ := length.1 pixels [auto] rfl (.inr ⟨rfl, by decide⟩)
  refine ⟨cut, ⟨n, read, split⟩, ⟨x, taken⟩, strict.2 ?_, ⟨y, value, taken'⟩, name.2 ?_⟩
  · rintro t ⟨⟩
    decide
  · rintro t ⟨⟩
    decide

end Lexer

end Stylebook
