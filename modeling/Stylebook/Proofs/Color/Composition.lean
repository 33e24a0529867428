import Stylebook.Proofs.Color.Expression
import Stylebook.Proofs.Value.Ends

/-!
# Functions around colours

The text of a colour can be put into a call, as that of a font can. The functions that adjust colours do to it what they
do to any colour, however deep they are nested, and a function that there is not is an error (`adjusting_composes`).

Unlike with fonts, there are no exceptions. A colour takes no comma behind it, so that the amount always goes to the
function around it. The text in the call must not be quoted, though: quotes around a colour are taken off before there
are words, and only if nothing stands around them. A call itself is never quoted (`not_isQuoted_call`).
-/

set_option autoImplicit false

namespace Stylebook

namespace Lexer

/-- No name starts with a blank or a quote. -/
theorem plain_of_isNameStart {c : Char} (start : isNameStart c = true) :
    (Text.isBlank c || Text.isQuote c) = false := by
  cases edge : Text.isBlank c || Text.isQuote c with
  | false => rfl
  | true =>
    rcases (Bool.or_eq_true _ _).mp edge with blank | quote
    · have all : ∀ n ∈ Text.blankPoints, isNameStart (Char.ofNat n) = false := by decide +kernel
      have other := all c.toNat (Text.mem_blankPoints blank)
      rw [Char.ofNat_toNat, start] at other
      cases other
    · simp only [Text.isQuote, Bool.or_eq_true, beq_iff_eq] at quote
      rcases quote with rfl | rfl <;> cases start

end Lexer

namespace Color

open Text (call withArgument)

variable {α : Type} [Scalar α] {type : ValueType} {text name figure : List Char} {c : Color α}

/-! ## Calls -/

theorem not_isQuoted_call (named : Lexer.isName name = true) (inside : List Char) :
    Text.isQuoted (call name inside) = false := by
  cases name with
  | nil => cases named
  | cons n name =>
    have start := (Bool.and_eq_true _ _).mp named
    obtain ⟨black, plain⟩ := Bool.or_eq_false_iff.mp (Lexer.plain_of_isNameStart start.1)
    exact Text.not_isQuoted_cons black plain _

theorem isName_of_adjustment {a : Adjustment} (named : Text.sameIgnoringCase name a.name.toList = true) :
    Lexer.isName name = true :=
  Lexer.isName_of_same named (by cases a <;> rfl)

/-! ## Functions that adjust colours -/

/-- A function that adjusts a colour, under its name in some case and with its amount as it is written. -/
structure Layer (α : Type) [Scalar α] where
  adjustment : Adjustment
  name : List Char
  named : Text.sameIgnoringCase name adjustment.name.toList = true
  figure : List Char
  amount : α
  written : Quantity figure amount

namespace Layer

variable (l : Layer α)

/-- The call of the function for a colour. -/
def wrap (text : List Char) : List Char :=
  call l.name (withArgument text l.figure)

def apply (c : Color α) : Color α :=
  l.adjustment.apply c l.amount

/-- The call is read as what the function makes of the colour in it. -/
theorem read_wrap (bare : Text.isQuoted text = false) (accepted : readColor type text = .ok (.color c)) :
    readColor type (l.wrap text) = .ok (.color (l.apply c)) := by
  obtain ⟨e, ws, consists, written, color⟩ := (readColor_eq_ok_iff bare).mp accepted
  obtain rfl := Value.color.inj color
  obtain ⟨kind, word, value⟩ := l.written.word
  have name := isName_of_adjustment l.named
  have called := Lexer.consists_call name (consists.argument word)
  rw [List.append_assoc] at called
  exact (readColor_eq_ok_iff (not_isQuoted_call name _)).mpr
    ⟨.adjusted l.adjustment e l.amount, _, called, .adjusted ⟨rfl, rfl⟩ l.named written rfl value rfl, rfl⟩

/-- So is the call in a call, and so on. -/
theorem read_foldl (bare : Text.isQuoted text = false) (accepted : readColor type text = .ok (.color c))
    (layers : List (Layer α)) :
    readColor type (layers.foldl (fun text l => l.wrap text) text) =
      .ok (.color (layers.foldl (fun c l => l.apply c) c)) := by
  induction layers generalizing text c with
  | nil => exact accepted
  | cons l layers ih =>
    exact ih (not_isQuoted_call (isName_of_adjustment l.named) _) (l.read_wrap bare accepted)

end Layer

/-- The call of a function that there is not is an error. -/
theorem read_unknown (bare : Text.isQuoted text = false) (accepted : readColor type text = .ok (.color c))
    (word : Lexer.isName name = true) (unknown : ¬IsFunction name) {n : α} (quantity : Quantity figure n) :
    (readColor type (call name (withArgument text figure)) : Except ValueError (Value α)) =
      .error (.invalid type (.unknownColorFunction (String.ofList (Text.asciiLower name)))) := by
  obtain ⟨e, ws, consists, written, -⟩ := (readColor_eq_ok_iff bare).mp accepted
  obtain ⟨kind, figured, value⟩ := quantity.word
  have called := Lexer.consists_call word (consists.argument figured)
  obtain ⟨ts, cut, words⟩ := Lexer.consists_iff.mp called
  simp only [List.append_assoc, List.cons_append, List.nil_append, List.map_eq_cons_iff, List.map_eq_append_iff,
    List.map_eq_nil_iff] at words
  obtain ⟨t, _, rfl, function, u, _, rfl, opens, front, _, rfl, rfl, m, _, rfl, comma, v, _, rfl, amount, z, _, rfl,
    close, rfl⟩ := words
  obtain ⟨functionKind, rfl⟩ := Word.mk.inj function
  rw [← amount, Token.looseNumber?_word] at value
  have failed := take_unknown ⟨functionKind, congrArg Word.kind opens⟩ unknown written (congrArg Word.kind comma) value
    (congrArg Word.kind close) []
  rw [readColor, not_isQuoted_call word, if_neg (by decide), Reading.whole_of_error cut failed]
  rfl

/-- **Functions that adjust colours compose.** A colour that is accepted without quotes is accepted in any number of
calls around it, and each of them does to it what it does to a colour. All names that are none of a function are
errors. -/
theorem adjusting_composes [Scalar.ReadsNumbers α] (bare : Text.isQuoted text = false)
    (accepted : readColor type text = .ok (.color c)) :
    (∀ layers : List (Layer α),
        readColor type (layers.foldl (fun text l => l.wrap text) text) =
          .ok (.color (layers.foldl (fun c l => l.apply c) c))) ∧
      ∀ name figure, Lexer.isName name = true →
        figure ∈ TokenKind.number.pattern ∨ figure ∈ TokenKind.dimension.pattern →
        ∃ n : α, Quantity figure n ∧
          (∀ a : Adjustment, Text.sameIgnoringCase name a.name.toList = true →
            readColor type (call name (withArgument text figure)) = .ok (.color (a.apply c n))) ∧
          (¬IsFunction name →
            (readColor type (call name (withArgument text figure)) : Except ValueError (Value α)) =
              .error (.invalid type (.unknownColorFunction (String.ofList (Text.asciiLower name))))) := by
  refine ⟨Layer.read_foldl bare accepted, ?_⟩
  intro name figure word figured
  obtain ⟨n, quantity⟩ := (exists_quantity_iff (α := α)).mpr figured
  refine ⟨n, quantity, ?_, ?_⟩
  · intro a named
    exact Layer.read_wrap ⟨a, name, named, figure, n, quantity⟩ bare accepted
  · intro unknown
    exact read_unknown bare accepted word unknown quantity

theorem adjusting_composes_twice :
    Text.isQuoted "#800".toList = false ∧
      readColor .color "#800".toList = .ok (.color (⟨8 / 15, 0, 0, 1⟩ : Color Rat)) ∧
      readColor .color "FadeOut(darken(#800, 50), 25%)".toList = .ok (.color (⟨4 / 15, 0, 0, 3 / 4⟩ : Color Rat)) ∧
      (Lexer.isName "Glow".toList = true ∧ "25%".toList ∈ TokenKind.dimension.pattern ∧ ¬IsFunction "Glow".toList) ∧
      (readColor .color "Glow(#800, 25%)".toList : Except ValueError (Value Rat)) =
        .error (.invalid .color (.unknownColorFunction "glow")) := by
  have bare : Text.isQuoted "#800".toList = false := by decide
  have whole : Reading.whole .color "#800".toList Color.take = .ok (⟨8 / 15, 0, 0, 1⟩ : Color Rat) := by
    decide +kernel
  have accepted : readColor .color "#800".toList = .ok (.color (⟨8 / 15, 0, 0, 1⟩ : Color Rat)) :=
    (readColor_eq_ok_iff_whole bare).mpr ⟨_, whole, rfl⟩
  have fifty : "50".toList ∈ TokenKind.number.pattern :=
    Lexer.mem_pattern_of_recognize (show Lexer.recognize '5' ['0'] = (some .number, 1) from rfl)
  have figure : "25".toList ∈ TokenKind.number.pattern :=
    Lexer.mem_pattern_of_recognize (show Lexer.recognize '2' ['5'] = (some .number, 1) from rfl)
  have quarter : "25%".toList ∈ TokenKind.dimension.pattern :=
    Lexer.mem_pattern_of_recognize (show Lexer.recognize '2' ['5', '%'] = (some .dimension, 2) from rfl)
  have number : Quantity "50".toList (50 : Rat) := .number fifty (by decide +kernel)
  have dimension : Quantity "25%".toList (25 : Rat) := .dimension figure (by decide +kernel) (.inl rfl)
  have color : Adjustment.fadeout.apply (Adjustment.darken.apply ⟨8 / 15, 0, 0, 1⟩ 50) 25 =
      (⟨4 / 15, 0, 0, 3 / 4⟩ : Color Rat) := by decide +kernel
  have named : Lexer.isName "Glow".toList = true := by decide
  have unknown : ¬IsFunction "Glow".toList := by
    rintro ((same | same) | ⟨a, same⟩)
    · exact absurd same (by decide)
    · exact absurd same (by decide)
    · cases a <;> exact absurd same (by decide)
  obtain ⟨nested, single⟩ := adjusting_composes bare accepted
  refine ⟨bare, accepted, ?_, ⟨named, quarter, unknown⟩, ?_⟩
  · rw [← color]
    exact nested [⟨.darken, "darken".toList, by decide, "50".toList, 50, number⟩,
      ⟨.fadeout, "FadeOut".toList, by decide, "25%".toList, 25, dimension⟩]
  · obtain ⟨n, -, -, other⟩ := single "Glow".toList "25%".toList named (.inr quarter)
    exact other unknown

end Color

end Stylebook
