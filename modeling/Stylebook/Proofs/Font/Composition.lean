import Stylebook.Proofs.Font.Expression
import Stylebook.Scalar.Rational

/-!
# Functions around fonts

The text of a font can be put into a call. Since a text is accepted where its words write an expression, the call is
accepted if its words write one, and the words of the call are those of the text with a few around them
(`Lexer.consists_call`, `Lexer.Consists.argument`). So functions that change the size of a font do to it what they do to
any font, however deep they are nested (`resizing_composes`).

This is not so for the function that sets a text style. A font of one word takes a text style behind it for its second
component: the name of the style then becomes its typeface, and the font is scaled as body text
(`scaled_Helvetica_headline`). The functions that change sizes are safe from this because they try both ways. What holds
of a font of more than one word, and what comes out otherwise, is `scaling_composes`.
-/

set_option autoImplicit false

namespace Stylebook

namespace Font

open Text (call withArgument)

variable {α : Type} [Scalar α] {usual : α} {type : ValueType} {f : List Char} {F : Font α}

/-! ## Functions that change sizes -/

theorem Adjustment.IsNamed.isName {a : Adjustment} {name : List Char} (named : a.IsNamed name) :
    Lexer.isName name = true := by
  obtain ⟨n, listed, same⟩ := named
  apply Lexer.isName_of_same same
  cases a with
  | larger => rcases List.mem_pair.mp listed with rfl | rfl <;> rfl
  | smaller =>
    obtain rfl := List.mem_singleton.mp listed
    rfl
  | exactly =>
    obtain rfl := List.mem_singleton.mp listed
    rfl

/-- A function that changes the size of a font, under one of its names and with its amount as it is written. -/
structure Resizing (α : Type) [Scalar α] where
  adjustment : Adjustment
  name : List Char
  named : adjustment.IsNamed name
  figure : List Char
  amount : α
  written : Amount figure amount

namespace Resizing

variable (r : Resizing α)

/-- The call of the function for a font. -/
def wrap (font : List Char) : List Char :=
  call r.name (withArgument font r.figure)

def apply (font : Font α) : Font α :=
  r.adjustment.apply font r.amount

@[simp] theorem typeface_apply (font : Font α) : (r.apply font).typeface = font.typeface := by
  unfold apply
  cases r.adjustment <;> rfl

@[simp] theorem scaledFor_apply (font : Font α) : (r.apply font).scaledFor = font.scaledFor := by
  unfold apply
  cases r.adjustment <;> rfl

/-- The call is read as what the function makes of the font in it. -/
theorem parse_wrap (accepted : parse usual type f = .ok F) : parse usual type (r.wrap f) = .ok (r.apply F) := by
  obtain ⟨e, ws, consists, written, rfl⟩ := parse_eq_ok_iff.mp accepted
  obtain ⟨kind, word, value⟩ := r.written.word
  have called := Lexer.consists_call r.named.isName (consists.argument word)
  rw [List.append_assoc] at called
  exact parse_eq_ok_iff.mpr
    ⟨.resized r.adjustment e r.amount, _, called, .resized ⟨rfl, rfl⟩ r.named written rfl value rfl, rfl⟩

end Resizing

/-- **Functions that change sizes compose.** A font that is accepted is accepted in any number of calls around it, and
each of them does to it what it does to a font. -/
theorem resizing_composes (accepted : parse usual type f = .ok F) (layers : List (Resizing α)) :
    parse usual type (layers.foldl (fun text r => r.wrap text) f) = .ok (layers.foldl (fun font r => r.apply font) F) ∧
      (layers.foldl (fun font r => r.apply font) F).typeface = F.typeface ∧
      (layers.foldl (fun font r => r.apply font) F).scaledFor = F.scaledFor := by
  induction layers generalizing f F with
  | nil => exact ⟨accepted, rfl, rfl⟩
  | cons r layers ih =>
    obtain ⟨parsed, typeface, scaledFor⟩ := ih (r.parse_wrap accepted)
    exact ⟨parsed, typeface.trans (r.typeface_apply F), scaledFor.trans (r.scaledFor_apply F)⟩

theorem resizing_composes_twice :
    parse (17 : Rat) .font "Helvetica".toList = .ok ⟨.family "Helvetica", 17, none⟩ ∧
      parse (17 : Rat) .font "smaller(BIGGER(Helvetica, 2Px), +0.5)".toList =
        .ok ⟨.family "Helvetica", 37 / 2, none⟩ := by
  have accepted : parse (17 : Rat) .font "Helvetica".toList = .ok ⟨.family "Helvetica", 17, none⟩ := by
    decide +kernel
  have bigger : Adjustment.larger.IsNamed "BIGGER".toList := ⟨"bigger", .tail _ (.head _), rfl⟩
  have smaller : Adjustment.smaller.IsNamed "smaller".toList := ⟨"smaller", .head _, rfl⟩
  have two : ['2'] ∈ TokenKind.number.pattern :=
    Lexer.mem_pattern_of_recognize (show Lexer.recognize '2' [] = (some .number, 0) from rfl)
  have half : "+0.5".toList ∈ TokenKind.number.pattern :=
    Lexer.mem_pattern_of_recognize (show Lexer.recognize '+' "0.5".toList = (some .number, 3) from rfl)
  have length : Amount "2Px".toList (2 : Rat) := .length two (by decide +kernel) rfl
  have number : Amount "+0.5".toList (1 / 2 : Rat) := .number half (by decide +kernel)
  have font : Adjustment.smaller.apply (Adjustment.larger.apply ⟨.family "Helvetica", 17, none⟩ 2) (1 / 2) =
      (⟨.family "Helvetica", 37 / 2, none⟩ : Font Rat) := by decide +kernel
  refine ⟨accepted, ?_⟩
  rw [← font]
  exact (resizing_composes accepted
    [⟨.larger, "BIGGER".toList, bigger, "2Px".toList, 2, length⟩,
      ⟨.smaller, "smaller".toList, smaller, "+0.5".toList, 1 / 2, number⟩]).1

/-! ## The function that sets a text style -/

/-- The names of text styles are names. -/
theorem isName_of_named? {s : List Char} {style : TextStyle} (known : TextStyle.named? s = some style) :
    Lexer.isName s = true := by
  have same : Text.sameIgnoringCase style.name.toList s = true := by
    unfold TextStyle.named? at known
    have found := List.find?_some known
    exact found
  apply Lexer.isName_of_asciiLower
  rw [← beq_iff_eq.mp same]
  cases style <;> rfl

theorem isName_of_scaled {name : List Char} (named : Text.sameIgnoringCase name "scaledFont".toList = true) :
    Lexer.isName name = true :=
  Lexer.isName_of_same named rfl

/-- The last name among components is that of the typeface. -/
theorem typeface_ofComponents (usual : α) (c : Component α) (s : List Char) :
    (ofComponents usual [c, .name s]).typeface = Typeface.ofName s := by
  have last : nameAmong none [c, .name s] = some s := by cases c <;> rfl
  unfold ofComponents
  rw [last, Option.map_some]
  cases Typeface.ofName s <;> rfl

section Scaling

variable {name s : List Char} {ws : List Word} {e : Expression α}

theorem parse_body (named : Text.sameIgnoringCase name "scaledFont".toList = true)
    (accepted : parse usual type f = .ok F) : parse usual type (call name f) = .ok (F.scaled .body) := by
  obtain ⟨e, ws, consists, written, rfl⟩ := parse_eq_ok_iff.mp accepted
  have called := Lexer.consists_call (isName_of_scaled named) consists
  exact parse_eq_ok_iff.mpr ⟨.scaled e none, _, called, .scaled ⟨rfl, rfl⟩ named written rfl, rfl⟩

/-- A text style behind a font of several words is set. -/
theorem parse_style (named : Text.sameIgnoringCase name "scaledFont".toList = true) (consists : Lexer.Consists f ws)
    (written : Written e ws) (several : 1 < ws.length) {style : TextStyle} (known : TextStyle.named? s = some style) :
    parse usual type (call name (withArgument f s)) = .ok ((e.font usual).scaled style) := by
  have argument := consists.argument (Lexer.mem_pattern_of_isName (isName_of_named? known))
  have called := Lexer.consists_call (isName_of_scaled named) argument
  rw [List.append_assoc] at called
  exact parse_eq_ok_iff.mpr
    ⟨.scaled e (some style), _, called, .styled ⟨rfl, rfl⟩ named written several rfl rfl known rfl, rfl⟩

/-- An unknown text style behind a font of several words is an error. -/
theorem parse_unknown (named : Text.sameIgnoringCase name "scaledFont".toList = true) (consists : Lexer.Consists f ws)
    (written : Written e ws) (several : 1 < ws.length) (word : Lexer.isName s = true)
    (unknown : TextStyle.named? s = none) :
    parse usual type (call name (withArgument f s)) =
      .error (.invalid type (.unknownTextStyle (String.ofList s))) := by
  have called := Lexer.consists_call (isName_of_scaled named) (consists.argument (Lexer.mem_pattern_of_isName word))
  obtain ⟨ts, cut, words⟩ := Lexer.consists_iff.mp called
  simp only [List.append_assoc, List.cons_append, List.nil_append, List.map_eq_cons_iff, List.map_eq_append_iff,
    List.map_eq_nil_iff] at words
  obtain ⟨t, _, rfl, function, u, _, rfl, opens, front, _, rfl, rfl, m, _, rfl, comma, x, _, rfl, style, z, _, rfl,
    close, rfl⟩ := words
  obtain ⟨functionKind, rfl⟩ := Word.mk.inj function
  obtain ⟨styleKind, rfl⟩ := Word.mk.inj style
  exact Reading.whole_of_error cut (take_unknown ⟨functionKind, congrArg Word.kind opens⟩ named written several
    (congrArg Word.kind comma) styleKind unknown usual true)

/-- A name behind a font of one word is a part of the font. -/
theorem parse_single (consists : Lexer.Consists f ws) (written : Written e ws) (single : ws.length = 1)
    (word : Lexer.isName s = true) (usual : α) (type : ValueType) :
    ∃ G : Font α, G.typeface = Typeface.ofName s ∧ parse usual type (withArgument f s) = .ok G := by
  obtain ⟨w, c, component, rfl, rfl⟩ := written.single (by omega)
  have argument := consists.argument (Lexer.mem_pattern_of_isName word)
  exact ⟨ofComponents usual [c, .name s], typeface_ofComponents usual c s,
    parse_eq_ok_iff.mpr ⟨.plain c (some (.name s)), _, argument, .pair component rfl rfl, rfl⟩⟩

/-- **Setting a text style composes behind a font of several words.** Behind a font of one word, the name of the style
is a part of the font. -/
theorem scaling_composes (accepted : parse usual type f = .ok F)
    (named : Text.sameIgnoringCase name "scaledFont".toList = true) :
    parse usual type (call name f) = .ok (F.scaled .body) ∧
      (1 < (Lexer.words f).length →
        (∀ s style, TextStyle.named? s = some style →
          parse usual type (call name (withArgument f s)) = .ok (F.scaled style)) ∧
        ∀ s, Lexer.isName s = true → TextStyle.named? s = none →
          parse usual type (call name (withArgument f s)) =
            .error (.invalid type (.unknownTextStyle (String.ofList s)))) ∧
      ((Lexer.words f).length = 1 → ∀ s, Lexer.isName s = true →
        ∃ G : Font α, G.typeface = Typeface.ofName s ∧ parse usual type (withArgument f s) = .ok G ∧
          parse usual type (call name (withArgument f s)) = .ok (G.scaled .body)) := by
  obtain ⟨e, ws, consists, written, rfl⟩ := parse_eq_ok_iff.mp accepted
  rw [consists.2]
  refine ⟨parse_body named accepted, ?_, ?_⟩
  · intro several
    constructor
    · intro s style known
      exact parse_style named consists written several known
    · intro s word unknown
      exact parse_unknown named consists written several word unknown
  · intro single s word
    obtain ⟨G, typeface, both⟩ := parse_single consists written single word usual type
    exact ⟨G, typeface, both, parse_body named both⟩

end Scaling

theorem scaling_composes_sized :
    (parse (17 : Rat) .font "Helvetica 12".toList = .ok ⟨.family "Helvetica", 12, none⟩ ∧
        1 < (Lexer.words "Helvetica 12".toList).length ∧
        parse (17 : Rat) .font "ScaledFont(Helvetica 12, Headline)".toList =
          .ok ⟨.family "Helvetica", 12, some .headline⟩ ∧
        parse (17 : Rat) .font "ScaledFont(Helvetica 12, huge)".toList =
          .error (.invalid .font (.unknownTextStyle "huge"))) ∧
      parse (17 : Rat) .font "Helvetica".toList = .ok ⟨.family "Helvetica", 17, none⟩ ∧
        (Lexer.words "Helvetica".toList).length = 1 ∧
        ∃ G : Font Rat, G.typeface = .style .headline ∧
          parse (17 : Rat) .font "ScaledFont(Helvetica, Headline)".toList = .ok (G.scaled .body) := by
  have named : Text.sameIgnoringCase "ScaledFont".toList "scaledFont".toList = true := by decide
  have sized : parse (17 : Rat) .font "Helvetica 12".toList = .ok ⟨.family "Helvetica", 12, none⟩ := by
    decide +kernel
  have alone : parse (17 : Rat) .font "Helvetica".toList = .ok ⟨.family "Helvetica", 17, none⟩ := by
    decide +kernel
  have several : 1 < (Lexer.words "Helvetica 12".toList).length := by decide +kernel
  have single : (Lexer.words "Helvetica".toList).length = 1 := by decide +kernel
  obtain ⟨styled, unknown⟩ := (scaling_composes sized named).2.1 several
  obtain ⟨G, typeface, -, scaled⟩ := (scaling_composes alone named).2.2 single "Headline".toList (by decide)
  refine ⟨⟨sized, several, styled "Headline".toList .headline (by decide), ?_⟩, alone, single, G, ?_, scaled⟩
  · exact unknown "huge".toList (by decide) (by decide)
  · rw [typeface]
    decide +kernel

/-- The name of a text style behind a single word becomes the typeface, and so does a name that is none. -/
theorem scaled_Helvetica_headline :
    parse (17 : Rat) .font "Helvetica".toList = .ok ⟨.family "Helvetica", 17, none⟩ ∧
      TextStyle.named? "headline".toList = some .headline ∧
      parse (17 : Rat) .font (call "scaledFont".toList (withArgument "Helvetica".toList "headline".toList)) =
        .ok ⟨.style .headline, 17, some .body⟩ ∧
      (⟨.style .headline, 17, some .body⟩ : Font Rat) ≠
        (⟨.family "Helvetica", 17, none⟩ : Font Rat).scaled .headline ∧
      Lexer.isName "huge".toList = true ∧ TextStyle.named? "huge".toList = none ∧
      parse (17 : Rat) .font (call "scaledFont".toList (withArgument "Helvetica".toList "huge".toList)) =
        .ok ⟨.family "huge", 17, some .body⟩ := by
  refine ⟨?_, ?_, ?_, ?_, ?_, ?_, ?_⟩ <;> decide +kernel

end Font

end Stylebook
