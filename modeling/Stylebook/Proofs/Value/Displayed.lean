import Stylebook.Proofs.Geometry.Written
import Stylebook.Proofs.Value.Dimension
import Stylebook.Proofs.Value.Steps
import Stylebook.Registry

/-!
# Displayed values parse back

The text that shows a figure or a relative number can be written where such a value is read, and that value comes back
(`Displayed.reads_back`). The two go different ways. A figure is quoted, and its braces are read without the lexer. A
relative number is not quoted, so that its text has to be one token, a number or a number with a percent sign, and
numbers that no token spells, the infinite ones, are left out.
-/

set_option autoImplicit false

namespace Stylebook

open Lexer Pattern

variable {α : Type} [Scalar α]

/-! ## Relative numbers -/

namespace Reading

theorem takeRelativeNumber_number {t : Token} (kind : t.kind = .number) {x : α}
    (read : Scalar.read? t.chars = some x) : takeRelativeNumber [t] = (.ok (.absolute x), []) := by
  simp [takeRelativeNumber, bind, eatKeyword, isKeyword, kind, eat, peek?, pure, number, item, Token.number?, read]

theorem takeRelativeNumber_percent {t : Token} (kind : t.kind = .dimension) (percent : t.chars.getLast? = some '%')
    {x : α} {unit : List Char} (read : splitDimension? t.chars = some (x, unit)) :
    takeRelativeNumber [t] = (.ok (.percent x), []) := by
  simp [takeRelativeNumber, bind, eatKeyword, isKeyword, kind, eat, peek?, pure, percent, takePercentage, advance?,
    read]

theorem takeRelativeNumber_auto {t : Token} (auto : isKeyword "auto" t = true) :
    takeRelativeNumber (α := α) [t] = (.ok .auto, []) := by
  simp [takeRelativeNumber, bind, eatKeyword, auto, pure]

end Reading

theorem number_of_decimal {w : List Char} (h : w ∈ Scalar.decimal) : w ∈ TokenKind.number.pattern := by
  obtain ⟨s, hs, f, hf, rfl⟩ := Language.mem_mul.mp h
  exact Language.append_mem_mul (mem_sign.mpr (hs.imp id .inr)) hf

theorem dimension_of_decimal {w : List Char} (h : w ∈ Scalar.decimal) :
    w ++ ['%'] ∈ TokenKind.dimension.pattern :=
  dimension_of_number (number_of_decimal h) (mem_unit.mpr (.inl rfl))

/-- A percentage is taken apart in front of its sign. -/
theorem splitDimension?_percent {w : List Char} (h : w ∈ Scalar.decimal) {x : α} (read : Scalar.read? w = some x) :
    splitDimension? (w ++ ['%']) = some (x, ['%']) := by
  rw [splitDimension?_append (number_of_decimal h) (mem_unit.mpr (.inl rfl)), read, Option.map_some]

theorem readRelativeNumber_of_token {w : List Char} {kind : TokenKind} {r : RelativeNumber α}
    (plain : ∀ c ∈ w, (Text.isBlank c || Text.isQuote c) = false) (word : w ∈ kind.pattern)
    (take : takeRelativeNumber [⟨kind, w, 0, false⟩] = (.ok r, [])) (type : ValueType) :
    readRelativeNumber type w = .ok (.relative r) := by
  have bare : Text.trimQuotes w = w := Text.trimWhile_of_trimmed (Text.trimmed_of_forall plain)
  rw [readRelativeNumber, bare, Reading.whole_eq_ok_iff.mpr ⟨_, tokensStrict_of_mem_pattern word, take⟩]
  rfl

/-- The text of a relative number is one token, and read back. -/
theorem readRelativeNumber_text (r : RelativeNumber α)
    (legible : ∀ x, r = .absolute x ∨ r = .percent x → Scalar.isFinite x = true ∧ Scalar.Legible x)
    (type : ValueType) : readRelativeNumber type r.text.toList = .ok (.relative r) := by
  cases r with
  | auto =>
    have text : (RelativeNumber.auto : RelativeNumber α).text.toList = ['a', 'u', 't', 'o'] := by
      change "auto".toList = _
      decide
    have plain : ∀ c ∈ ['a', 'u', 't', 'o'], (Text.isBlank c || Text.isQuote c) = false := by
      simp [Text.isBlank, Text.isQuote]
    have word : ['a', 'u', 't', 'o'] ∈ TokenKind.ident.pattern := mem_identifier.mpr rfl
    rw [text]
    exact readRelativeNumber_of_token plain word (Reading.takeRelativeNumber_auto (by decide)) type
  | absolute x =>
    obtain ⟨finite, legible⟩ := legible x (.inl rfl)
    exact readRelativeNumber_of_token legible.plain (number_of_decimal (legible.finite finite))
      (Reading.takeRelativeNumber_number rfl legible.read) type
  | percent x =>
    obtain ⟨finite, legible⟩ := legible x (.inr rfl)
    have decimal := legible.finite finite
    have text : (RelativeNumber.percent x).text.toList = (Scalar.render x).toList ++ ['%'] := String.toList_append
    have plain : ∀ c ∈ (Scalar.render x).toList ++ ['%'], (Text.isBlank c || Text.isQuote c) = false :=
      List.forall_mem_append.mpr ⟨legible.plain, by simp [Text.isBlank, Text.isQuote]⟩
    rw [text]
    exact readRelativeNumber_of_token plain (dimension_of_decimal decimal)
      (Reading.takeRelativeNumber_percent rfl List.getLast?_concat (splitDimension?_percent decimal legible.read)) type

/-! ## The readers of this library -/

theorem Registry.standard_get? [Trigonometric α] {type : ValueType} {read : ValueReader α}
    (mem : (type, read) ∈ standardReaders (Font.systemSize : α)) :
    (standard : Registry α).readers.get? type = some read := by
  have differ : ((standardReaders (Font.systemSize : α)).map (·.1)).Nodup := by
    change [ValueType.string, .bool, .number, .relativeNumber, .color, .rect, .offset, .size, .point, .insets, .font,
      .keywords, .transform].Nodup
    decide
  exact Table.get?_ofList_of_nodup differ mem

/-! ## Everything that is displayed -/

/-- A figure or a relative number. -/
inductive Displayed (α : Type) where
  | point (p : Point α)
  | size (s : Size α)
  | offset (d : Offset α)
  | rect (r : Rect α)
  | insets (i : Insets α)
  | relative (r : RelativeNumber α)

namespace Displayed

def numbers : Displayed α → List α
  | .point p => [p.x, p.y]
  | .size s => [s.width, s.height]
  | .offset d => [d.horizontal, d.vertical]
  | .rect r => [r.x, r.y, r.width, r.height]
  | .insets i => [i.top, i.left, i.bottom, i.right]
  | .relative (.absolute x) => [x]
  | .relative (.percent x) => [x]
  | .relative .auto => []

/-- The numbers that the text of the value can be read back with: for a relative number only finite ones. -/
def Admits : Displayed α → α → Prop
  | .relative _, x => Scalar.isFinite x = true
  | _, x => Scalar.isComparable x = true

/-- In quotes of either kind, the text is a value of the type. -/
def ReadsInQuotes [Trigonometric α] (type : ValueType) (text : String) (value : Value α) : Prop :=
  ∀ q ∈ ["'", "\""], ∀ serial, (Registry.standard : Registry α).parse serial type (q ++ text ++ q) = .ok value

/-- The text of the value is read back: of a figure by itself and in quotes, of a relative number without quotes. -/
def ReadsBack [Trigonometric α] : Displayed α → Prop
  | .point p => Shape.parse p.text = .ok p ∧ ReadsInQuotes .point p.text (.point p)
  | .size s => Shape.parse s.text = .ok s ∧ ReadsInQuotes .size s.text (.size s)
  | .offset d => Shape.parse d.text = .ok d ∧ ReadsInQuotes .offset d.text (.offset d)
  | .rect r => Shape.parse r.text = .ok r ∧ ReadsInQuotes .rect r.text (.rect r)
  | .insets i => Shape.parse i.text = .ok i ∧ ReadsInQuotes .insets i.text (.insets i)
  | .relative r => ∀ type, readRelativeNumber type r.text.toList = .ok (.relative r)

/-- A figure is read back if the reader of its type wraps what is read as a figure. -/
theorem reads_back_of_written [Trigonometric α] {S : Type → Type} [Shape S] {figure : S α} {numbers : List α}
    {text : String} (written : Written figure numbers text) (legible : ∀ x ∈ numbers, Scalar.Legible x)
    {type : ValueType} {wrap : S α → Value α} (read : ValueType → List Char → Except ValueError (Value α))
    (mem : (type, Registry.reader read) ∈ Registry.standardReaders (Font.systemSize : α))
    (wraps : ∀ raw, read type raw = (readFigure type raw).map wrap) :
    Shape.parse text = .ok figure ∧ ReadsInQuotes type text (wrap figure) := by
  have reads {q : Char} (quote : Text.isQuote q = true) (serial : Nat) {raw : String}
      (whole : raw.toList = q :: (text.toList ++ [q])) :
      (Registry.standard : Registry α).parse serial type raw = .ok (wrap figure) := by
    simp only [Registry.parse, Registry.standard_get? mem, Registry.reader, wraps, whole,
      written.readFigure legible type quote]
    rfl
  refine ⟨written.parse legible, fun q hq serial => ?_⟩
  simp only [List.mem_cons, List.not_mem_nil, or_false] at hq
  rcases hq with rfl | rfl
  · have quote : Text.isQuote '\'' = true := rfl
    exact reads quote serial (by simp)
  · have quote : Text.isQuote '"' = true := rfl
    exact reads quote serial (by simp)

theorem isComparable_of_admits {d : Displayed α} {x : α} (admitted : d.Admits x) :
    Scalar.isComparable x = true := by
  cases d with
  | relative r => exact ((Bool.and_eq_true _ _).mp admitted).1
  | _ => exact admitted

/-- **Displayed values parse back.** -/
theorem reads_back [Trigonometric α] (d : Displayed α) (admitted : ∀ x ∈ d.numbers, d.Admits x)
    (expected : ∀ x ∈ d.numbers, Scalar.isComparable x = true → Scalar.Legible x) : d.ReadsBack := by
  have legible : ∀ x ∈ d.numbers, Scalar.Legible x :=
    fun x hx => expected x hx (isComparable_of_admits (admitted x hx))
  cases d with
  | point p =>
    exact reads_back_of_written (p.written legible) legible readPoint (by simp [Registry.standardReaders]) fun _ => rfl
  | size s =>
    exact reads_back_of_written (s.written legible) legible readSize (by simp [Registry.standardReaders]) fun _ => rfl
  | offset d =>
    exact reads_back_of_written (d.written legible) legible readOffset (by simp [Registry.standardReaders]) fun _ => rfl
  | rect r =>
    exact reads_back_of_written (r.written legible) legible readRect (by simp [Registry.standardReaders]) fun _ => rfl
  | insets i =>
    exact reads_back_of_written (i.written legible) legible readInsets (by simp [Registry.standardReaders]) fun _ => rfl
  | relative r =>
    refine readRelativeNumber_text r fun x hx => ?_
    have mem : x ∈ (relative r).numbers := by
      rcases hx with rfl | rfl <;> exact List.mem_singleton.mpr rfl
    exact ⟨admitted x mem, legible x mem⟩

/-- A rectangle without an end to the right. -/
def strip : Displayed Float :=
  .rect ⟨-1.5, 0.1, 1.0 / 0.0, 20.0⟩

/-- Half a percent less than nothing. -/
def loss : Displayed Float :=
  .relative (.percent (-0.5))

theorem reads_back_strip :
    ((∀ x ∈ strip.numbers, strip.Admits x) ∧
        (∀ x ∈ strip.numbers, Scalar.isComparable x = true → Scalar.Legible x) ∧ strip.ReadsBack) ∧
      (∀ x ∈ loss.numbers, loss.Admits x) ∧
        (∀ x ∈ loss.numbers, Scalar.isComparable x = true → Scalar.Legible x) ∧ loss.ReadsBack := by
  have left : Scalar.Legible (-1.5 : Float) :=
    Scalar.legible_of_numeral rfl (by decide +kernel) (s := ['-']) (w := ['1', '.', '5']) rfl (.inr rfl) rfl
  have top : Scalar.Legible (0.1 : Float) :=
    Scalar.legible_of_numeral rfl (by decide +kernel) (s := []) (w := ['0', '.', '1']) rfl (.inl rfl) rfl
  have height : Scalar.Legible (20.0 : Float) :=
    Scalar.legible_of_numeral rfl (by decide +kernel) (s := []) (w := ['2', '0']) rfl (.inl rfl) rfl
  have half : Scalar.Legible (-0.5 : Float) :=
    Scalar.legible_of_numeral rfl (by decide +kernel) (s := ['-']) (w := ['0', '.', '5']) rfl (.inr rfl) rfl
  have endless : Scalar.isFinite (1.0 / 0.0 : Float) = false := by decide +kernel
  have width : Scalar.Legible (1.0 / 0.0 : Float) :=
    ⟨rfl, fun finite => by simp [endless] at finite, fun _ => .inl (by decide +kernel)⟩
  have admitted : ∀ x ∈ strip.numbers, strip.Admits x := by
    change ∀ x ∈ [(-1.5 : Float), 0.1, 1.0 / 0.0, 20.0], Scalar.isComparable x = true
    decide +kernel
  have expected : ∀ x ∈ strip.numbers, Scalar.isComparable x = true → Scalar.Legible x := by
    change ∀ x ∈ [(-1.5 : Float), 0.1, 1.0 / 0.0, 20.0], Scalar.isComparable x = true → Scalar.Legible x
    simp [left, top, width, height]
  have admitted' : ∀ x ∈ loss.numbers, loss.Admits x := by
    change ∀ x ∈ [(-0.5 : Float)], Scalar.isFinite x = true
    decide +kernel
  have expected' : ∀ x ∈ loss.numbers, Scalar.isComparable x = true → Scalar.Legible x := by
    change ∀ x ∈ [(-0.5 : Float)], Scalar.isComparable x = true → Scalar.Legible x
    simp [half]
  exact ⟨⟨admitted, expected, reads_back strip admitted expected⟩,
    admitted', expected', reads_back loss admitted' expected'⟩

end Displayed

end Stylebook
