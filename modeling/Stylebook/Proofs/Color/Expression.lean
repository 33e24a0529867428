import Stylebook.Proofs.Value.Calls
import Stylebook.Proofs.Value.Dimension
import Stylebook.Proofs.Value.Rows
import Stylebook.Value.Color

/-!
# Colours as expressions

What a colour is read from is an expression: a colour that is one word, or channels, with adjustments around it.
`Written e ws` says which words write an expression, and `take_eq_ok` that what is taken as a colour writes one,
whatever stands behind it. Unlike a font, a colour never takes what belongs to the function around it.

The function of an adjustment is looked up after its arguments were read. So an unknown one is found out behind them
(`take_unknown`).
-/

set_option autoImplicit false

namespace Stylebook.Color

open Reading

/-! ## Expressions -/

/-- The functions that adjust a colour. -/
inductive Adjustment where
  | lighten
  | darken
  | saturate
  | desaturate
  | fadein
  | fadeout
  | alpha
  | opacity

def Adjustment.name : Adjustment → String
  | lighten => "lighten"
  | darken => "darken"
  | saturate => "saturate"
  | desaturate => "desaturate"
  | fadein => "fadein"
  | fadeout => "fadeout"
  | alpha => "alpha"
  | opacity => "opacity"

/-- A colour as it is written. -/
inductive Expression (α : Type) where
  | simple (c : Color α)
  | rgb (red green blue : α)
  | rgba (red green blue alpha : α)
  | adjusted (adjustment : Adjustment) (inner : Expression α) (amount : α)

section Meaning

variable {α : Type} [Scalar α]

/-- What the functions mean. -/
def Adjustment.apply : Adjustment → Color α → α → Color α
  | lighten, c, n => c.adjustBrightness n
  | darken, c, n => c.adjustBrightness (-n)
  | saturate, c, n => c.adjustSaturation n
  | desaturate, c, n => c.adjustSaturation (-n)
  | fadein, c, n => c.adjustAlpha n
  | fadeout, c, n => c.adjustAlpha (-n)
  | alpha, c, n => c.withAlpha n
  | opacity, c, n => c.withAlpha n

/-- The colour that an expression stands for. -/
def Expression.color : Expression α → Color α
  | simple c => c
  | rgb red green blue => ⟨ofChannel red, ofChannel green, ofChannel blue, Scalar.one⟩
  | rgba red green blue alpha => ⟨ofChannel red, ofChannel green, ofChannel blue, Scalar.clampUnit alpha⟩
  | adjusted adjustment inner amount => adjustment.apply inner.color amount

/-- The colour that a word is, if it is one. -/
def simple? (w : Word) : Option (Color α) :=
  match w.kind with
  | .hexColor => ofHex? w.chars
  | .ident => named? w.chars
  | _ => none

/-- The words write the expression. -/
inductive Written : Expression α → List Word → Prop
  | simple {w : Word} {c : Color α} (color : simple? w = some c) : Written (.simple c) [w]
  | rgb {w o z : Word} {red green blue : α} {ws : List Word} (call : Call w o)
      (named : Text.sameIgnoringCase w.chars "rgb".toList = true)
      (channels : Row false (Member Token.number?) [red, green, blue] ws) (close : z.kind = .parenClose) :
      Written (.rgb red green blue) (w :: o :: (ws ++ [z]))
  | rgba {w o z : Word} {red green blue alpha : α} {ws : List Word} (call : Call w o)
      (named : Text.sameIgnoringCase w.chars "rgba".toList = true)
      (channels : Row false (Member Token.number?) [red, green, blue, alpha] ws) (close : z.kind = .parenClose) :
      Written (.rgba red green blue alpha) (w :: o :: (ws ++ [z]))
  | adjusted {w o m v z : Word} {a : Adjustment} {e : Expression α} {n : α} {ws : List Word} (call : Call w o)
      (named : Text.sameIgnoringCase w.chars a.name.toList = true) (inner : Written e ws)
      (comma : m.kind = .comma) (amount : v.token.looseNumber? = some n) (close : z.kind = .parenClose) :
      Written (.adjusted a e n) (w :: o :: (ws ++ [m, v, z]))

end Meaning

variable {α : Type} [Scalar α] {t u m v z : Token} {ts front rest : List Token} {c d : Color α} {n : α}

/-! ## Channels -/

section Channels

variable {x : α} {xs : List α} {ws : List Word}

theorem channelList_close (close : z.kind = .parenClose) (first : Bool) (rest : List Token) :
    channelList first (z :: rest) = (.ok ([] : List α), rest) := by
  rw [channelList.eq_def]
  simp [close]

theorem channelList_first (value : t.number? = some x) (ts : List Token) :
    channelList true (t :: ts) = consTo x (channelList false ts) := by
  rw [channelList.eq_def]
  simp [(readable_number.plain value).1, value]

theorem channelList_comma (comma : m.kind = .comma) (value : t.number? = some x) (ts : List Token) :
    channelList false (m :: t :: ts) = consTo x (channelList false ts) := by
  rw [channelList.eq_def]
  simp [comma, value]

theorem channelList_of_further (close : z.kind = .parenClose)
    (further : Further false (Member Token.number?) xs ws) (words : front.map Token.word = ws) :
    channelList false (front ++ z :: rest) = (.ok xs, rest) := by
  induction further generalizing front with
  | nil =>
    obtain rfl := List.map_eq_nil_iff.mp words
    exact channelList_close close false rest
  | @cons s w x xs ws separator first others ih =>
    cases separator with
    | nothing left => cases left
    | comma comma =>
      simp only [List.singleton_append, List.map_eq_cons_iff] at words
      obtain ⟨m, _, rfl, rfl, t, ts, rfl, rfl, words⟩ := words
      rw [Member, Token.number?_word] at first
      simp only [List.cons_append]
      rw [channelList_comma comma first, ih words]
      rfl

theorem channelList_of_row (close : z.kind = .parenClose)
    (row : Row false (Member Token.number?) xs (front.map Token.word)) :
    channelList true (front ++ z :: rest) = (.ok xs, rest) := by
  generalize words : front.map Token.word = ws at row
  cases row with
  | nil =>
    obtain rfl := List.map_eq_nil_iff.mp words
    exact channelList_close close true rest
  | cons first others =>
    obtain ⟨t, ts, rfl, rfl, behind⟩ := List.map_eq_cons_iff.mp words
    rw [Member, Token.number?_word] at first
    rw [List.cons_append, channelList_first first, channelList_of_further close others behind]
    rfl

theorem further_of_channelList {first : Bool} (later : first = false) (h : channelList first ts = (.ok xs, rest)) :
    ∃ (front : List Token) (z : Token), ts = front ++ z :: rest ∧ z.kind = .parenClose ∧
      Further false (Member Token.number?) xs (front.map Token.word) := by
  -- Only the first turn of the loop takes a channel without a comma, so the cases for it are void.
  fun_induction channelList (α := α) first ts generalizing xs rest with
  | case1 => cases h
  | case2 first z ts close =>
    cases h
    exact ⟨[], z, rfl, close, .nil⟩
  | case3 => cases later
  | case4 => cases later
  | case5 => cases h
  | case6 first m _ _ comma u ts n value ih =>
    obtain ⟨ys, taken, rfl⟩ := consTo_eq_ok h
    obtain ⟨front, z, rfl, close, others⟩ := ih rfl taken
    exact ⟨m :: u :: front, z, rfl, close, .cons (.comma comma) value others⟩
  | case7 => cases h
  | case8 => cases h

theorem row_of_channelList (h : channelList true ts = (.ok xs, rest)) :
    ∃ (front : List Token) (z : Token), ts = front ++ z :: rest ∧ z.kind = .parenClose ∧
      Row false (Member Token.number?) xs (front.map Token.word) := by
  cases ts with
  | nil => cases h
  | cons t ts =>
    by_cases close : t.kind = .parenClose
    · rw [channelList_close close] at h
      cases h
      exact ⟨[], t, rfl, close, .nil⟩
    · cases value : (t.number? : Option α) with
      | none =>
        rw [channelList.eq_def] at h
        simp [close, value] at h
      | some x =>
        rw [channelList_first value] at h
        obtain ⟨ys, taken, rfl⟩ := consTo_eq_ok h
        obtain ⟨front, z, rfl, closed, others⟩ := further_of_channelList rfl taken
        exact ⟨t :: front, z, rfl, closed, .cons value others⟩

/-- The channels that are taken are a row with commas, and the parenthesis behind it. -/
theorem channelList_eq_ok_iff :
    channelList true ts = (.ok xs, rest) ↔
      ∃ (front : List Token) (z : Token), ts = front ++ z :: rest ∧ z.kind = .parenClose ∧
        Row false (Member Token.number?) xs (front.map Token.word) := by
  constructor
  · exact row_of_channelList
  · rintro ⟨front, z, rfl, close, row⟩
    exact channelList_of_row close row

end Channels

theorem takeRgb_eq_ok_iff :
    takeRgb ts = (.ok c, rest) ↔
      ∃ red green blue, channelList true ts = (.ok [red, green, blue], rest) ∧
        (Expression.rgb red green blue).color = c := by
  constructor
  · intro h
    obtain ⟨xs, left, taken, made⟩ := bind_eq_ok h
    split at made
    · cases made
      exact ⟨_, _, _, taken, rfl⟩
    · cases made
  · rintro ⟨red, green, blue, taken, rfl⟩
    exact bind_of_ok taken _

theorem takeRgba_eq_ok_iff :
    takeRgba ts = (.ok c, rest) ↔
      ∃ red green blue alpha, channelList true ts = (.ok [red, green, blue, alpha], rest) ∧
        (Expression.rgba red green blue alpha).color = c := by
  constructor
  · intro h
    obtain ⟨xs, left, taken, made⟩ := bind_eq_ok h
    split at made
    · cases made
      exact ⟨_, _, _, _, taken, rfl⟩
    · cases made
  · rintro ⟨red, green, blue, alpha, taken, rfl⟩
    exact bind_of_ok taken _

/-! ## Adjustments -/

theorem adjustment?_eq_some_iff :
    adjustment? (functionOf t) c n = some d ↔
      ∃ a : Adjustment, Text.sameIgnoringCase t.chars a.name.toList = true ∧ a.apply c n = d := by
  constructor
  · intro h
    unfold adjustment? at h
    split at h
    · exact ⟨.lighten, named_of_functionOf ‹_› rfl, Option.some.inj h⟩
    · exact ⟨.darken, named_of_functionOf ‹_› rfl, Option.some.inj h⟩
    · exact ⟨.saturate, named_of_functionOf ‹_› rfl, Option.some.inj h⟩
    · exact ⟨.desaturate, named_of_functionOf ‹_› rfl, Option.some.inj h⟩
    · exact ⟨.fadein, named_of_functionOf ‹_› rfl, Option.some.inj h⟩
    · exact ⟨.fadeout, named_of_functionOf ‹_› rfl, Option.some.inj h⟩
    · exact ⟨.alpha, named_of_functionOf ‹_› rfl, Option.some.inj h⟩
    · exact ⟨.opacity, named_of_functionOf ‹_› rfl, Option.some.inj h⟩
    · cases h
  · rintro ⟨a, named, rfl⟩
    have function : functionOf t = a.name := functionOf_of_named named (by cases a <;> rfl)
    rw [function]
    cases a <;> rfl

theorem takeAdjustment_cons (function : String) (c : Color α) (comma : m.kind = .comma)
    (amount : v.looseNumber? = some n) (close : z.kind = .parenClose) (rest : List Token) :
    takeAdjustment function c (m :: v :: z :: rest) =
      match adjustment? function c n with
      | some d => (.ok d, rest)
      | none => (.error (.unknownColorFunction function), rest) := by
  refine (argument_cons comma amount close rest).trans ?_
  cases adjustment? function c n <;> rfl

theorem takeAdjustment_eq_ok {function : String} (h : takeAdjustment function c ts = (.ok d, rest)) :
    ∃ m v z n, ts = m :: v :: z :: rest ∧ m.kind = .comma ∧ v.looseNumber? = some n ∧ z.kind = .parenClose ∧
      adjustment? function c n = some d := by
  obtain ⟨m, v, z, n, left, rfl, comma, amount, close, made⟩ := argument_eq_ok h
  cases adjusted : adjustment? function c n with
  | none =>
    simp only [adjusted] at made
    cases made
  | some d =>
    simp only [adjusted] at made
    cases made
    exact ⟨m, v, z, n, rfl, comma, amount, close, adjusted⟩

/-! ## Colours of one word -/

theorem takeSimple_cons (color : simple? t.word = some c) (rest : List Token) :
    takeSimple (t :: rest) = (.ok c, rest) := by
  cases kind : t.kind with
  | hexColor =>
    have hex : ofHex? t.chars = some c := by simpa [simple?, kind] using color
    simp [takeSimple, kind, hex]
  | ident =>
    have name : named? t.chars = some c := by simpa [simple?, kind] using color
    simp [takeSimple, kind, name]
  | _ => simp [simple?, kind] at color

theorem takeSimple_eq_ok (h : takeSimple ts = (.ok c, rest)) : ∃ t, ts = t :: rest ∧ simple? t.word = some c := by
  cases ts with
  | nil => cases h
  | cons t ts =>
    simp only [takeSimple] at h
    cases kind : t.kind with
    | hexColor | ident =>
      simp only [kind] at h
      split at h
      · rename_i known
        cases h
        exact ⟨t, rfl, by simpa [simple?, kind] using known⟩
      · cases h
    | _ =>
      simp only [kind] at h
      cases h

/-! ## What is taken is written -/

/-- The tokens up to `rest` write an expression that stands for the colour. -/
def Writes (ts : List Token) (c : Color α) (rest : List Token) : Prop :=
  ∃ e front, ts = front ++ rest ∧ Written e (front.map Token.word) ∧ e.color = c

theorem Writes.simple (h : takeSimple ts = (.ok c, rest)) : Writes ts c rest := by
  obtain ⟨t, rfl, color⟩ := takeSimple_eq_ok h
  exact ⟨.simple c, [t], rfl, .simple color, rfl⟩

theorem Writes.rgb (call : Call t.word u.word) (function : functionOf t = "rgb") (h : takeRgb ts = (.ok c, rest)) :
    Writes (t :: u :: ts) c rest := by
  obtain ⟨red, green, blue, taken, rfl⟩ := takeRgb_eq_ok_iff.mp h
  obtain ⟨front, z, rfl, close, row⟩ := channelList_eq_ok_iff.mp taken
  refine ⟨.rgb red green blue, t :: u :: (front ++ [z]), by simp, ?_, rfl⟩
  simp only [List.map_cons, List.map_append, List.map_nil]
  exact .rgb call (named_of_functionOf function rfl) row close

theorem Writes.rgba (call : Call t.word u.word) (function : functionOf t = "rgba") (h : takeRgba ts = (.ok c, rest)) :
    Writes (t :: u :: ts) c rest := by
  obtain ⟨red, green, blue, alpha, taken, rfl⟩ := takeRgba_eq_ok_iff.mp h
  obtain ⟨front, z, rfl, close, row⟩ := channelList_eq_ok_iff.mp taken
  refine ⟨.rgba red green blue alpha, t :: u :: (front ++ [z]), by simp, ?_, rfl⟩
  simp only [List.map_cons, List.map_append, List.map_nil]
  exact .rgba call (named_of_functionOf function rfl) row close

theorem Writes.adjusted {behind : List Token} (call : Call t.word u.word) (inner : Writes ts c behind)
    (h : takeAdjustment (functionOf t) c behind = (.ok d, rest)) : Writes (t :: u :: ts) d rest := by
  obtain ⟨e, front, rfl, written, rfl⟩ := inner
  obtain ⟨m, v, z, n, rfl, comma, amount, close, adjusted⟩ := takeAdjustment_eq_ok h
  obtain ⟨a, named, rfl⟩ := adjustment?_eq_some_iff.mp adjusted
  refine ⟨.adjusted a e n, t :: u :: (front ++ [m, v, z]), by simp, ?_, rfl⟩
  simp only [List.map_cons, List.map_append, List.map_nil]
  exact .adjusted call named written comma amount close

theorem take_eq_ok (h : take ts = (.ok c, rest)) : Writes ts c rest := by
  fun_induction take (α := α) ts generalizing c rest with
  | case1 t u inner call function => exact .rgb ⟨call.1, call.2⟩ function h
  | case2 t u inner call _ function => exact .rgba ⟨call.1, call.2⟩ function h
  | case3 t u inner call _ _ ih =>
    obtain ⟨d, behind, first, adjusted⟩ := continueWith_eq_ok h
    exact .adjusted ⟨call.1, call.2⟩ (ih first) adjusted
  | case4 => exact .simple h
  | case5 => exact .simple h

/-! ## What is written is taken -/

theorem take_simple (unopened : Unopened rest) :
    (take (t :: rest) : Except Flaw (Color α) × List Token) = takeSimple (t :: rest) := by
  cases rest with
  | nil => simp [take]
  | cons u rest =>
    rw [unopened_cons] at unopened
    rw [take, if_neg (by simp [unopened])]

theorem take_rgb (call : Call t.word u.word) (named : Text.sameIgnoringCase t.chars "rgb".toList = true)
    (ts : List Token) : (take (t :: u :: ts) : Except Flaw (Color α) × List Token) = takeRgb ts := by
  have function : functionOf t = "rgb" := functionOf_of_named named rfl
  rw [take, if_pos ⟨call.name, call.opens⟩, if_pos function]

theorem take_rgba (call : Call t.word u.word) (named : Text.sameIgnoringCase t.chars "rgba".toList = true)
    (ts : List Token) : (take (t :: u :: ts) : Except Flaw (Color α) × List Token) = takeRgba ts := by
  have function : functionOf t = "rgba" := functionOf_of_named named rfl
  rw [take, if_pos ⟨call.name, call.opens⟩, if_neg (by rw [function]; decide), if_pos function]

/-- The functions that take the channels of a colour. -/
def IsLiteral (name : List Char) : Prop :=
  Text.sameIgnoringCase name "rgb".toList = true ∨ Text.sameIgnoringCase name "rgba".toList = true

/-- The functions that there are. -/
def IsFunction (name : List Char) : Prop :=
  IsLiteral name ∨ ∃ a : Adjustment, Text.sameIgnoringCase name a.name.toList = true

theorem not_isLiteral_of_named {a : Adjustment} {name : List Char}
    (named : Text.sameIgnoringCase name a.name.toList = true) : ¬IsLiteral name := by
  have same := beq_iff_eq.mp named
  rw [IsLiteral, Text.sameIgnoringCase, Text.sameIgnoringCase, same]
  cases a <;> decide

theorem take_function (call : Call t.word u.word) (other : ¬IsLiteral t.chars) (ts : List Token) :
    (take (t :: u :: ts) : Except Flaw (Color α) × List Token) =
      continueWith (take ts) (takeAdjustment (functionOf t)) := by
  have rgb : functionOf t ≠ "rgb" := fun function => other (.inl (named_of_functionOf function rfl))
  have rgba : functionOf t ≠ "rgba" := fun function => other (.inr (named_of_functionOf function rfl))
  rw [take, if_pos ⟨call.name, call.opens⟩, if_neg rgb, if_neg rgba]

/-- Tokens that write an expression are taken, all of them and nothing behind them. -/
theorem Written.take {e : Expression α} {ws : List Word} (written : Written e ws) (words : ts.map Token.word = ws)
    (unopened : Unopened rest) : take (ts ++ rest) = (.ok e.color, rest) := by
  -- The rest has to be general: inside a call it starts with the comma in front of the amount.
  induction written generalizing ts rest with
  | simple color =>
    obtain ⟨t, rfl, rfl⟩ := List.map_eq_singleton_iff.mp words
    exact (take_simple unopened).trans (takeSimple_cons color rest)
  | rgb call named channels close =>
    simp only [List.map_eq_cons_iff, List.map_eq_append_iff, List.map_eq_nil_iff] at words
    obtain ⟨t, _, rfl, rfl, u, _, rfl, rfl, front, _, rfl, rfl, z, _, rfl, rfl, rfl⟩ := words
    simp only [List.cons_append, List.append_assoc, List.nil_append]
    rw [take_rgb call named]
    exact takeRgb_eq_ok_iff.mpr ⟨_, _, _, channelList_of_row close channels, rfl⟩
  | rgba call named channels close =>
    simp only [List.map_eq_cons_iff, List.map_eq_append_iff, List.map_eq_nil_iff] at words
    obtain ⟨t, _, rfl, rfl, u, _, rfl, rfl, front, _, rfl, rfl, z, _, rfl, rfl, rfl⟩ := words
    simp only [List.cons_append, List.append_assoc, List.nil_append]
    rw [take_rgba call named]
    exact takeRgba_eq_ok_iff.mpr ⟨_, _, _, _, channelList_of_row close channels, rfl⟩
  | adjusted call named inner comma amount close ih =>
    simp only [List.map_eq_cons_iff, List.map_eq_append_iff, List.map_eq_nil_iff] at words
    obtain ⟨t, _, rfl, rfl, u, _, rfl, rfl, front, _, rfl, rfl, m, _, rfl, rfl, v, _, rfl, rfl, z, _, rfl, rfl, rfl⟩ :=
      words
    rw [Token.looseNumber?_word] at amount
    have unopened : Unopened (m :: v :: z :: rest) := unopened_of_kind comma (by decide)
    have first := ih rfl unopened
    simp only [List.cons_append, List.append_assoc, List.nil_append]
    rw [take_function call (not_isLiteral_of_named named), first, continueWith_ok,
      takeAdjustment_cons _ _ comma amount close, adjustment?_eq_some_iff.mpr ⟨_, named, rfl⟩]
    rfl

/-- A function that is not known is found out behind its arguments. -/
theorem take_unknown {e : Expression α} (call : Call t.word u.word) (unknown : ¬IsFunction t.chars)
    (written : Written e (front.map Token.word)) (comma : m.kind = .comma) (amount : v.looseNumber? = some n)
    (close : z.kind = .parenClose) (rest : List Token) :
    (take (t :: u :: (front ++ m :: v :: z :: rest)) : Except Flaw (Color α) × List Token) =
      (.error (.unknownColorFunction (functionOf t)), rest) := by
  have unopened : Unopened (m :: v :: z :: rest) := unopened_of_kind comma (by decide)
  have first := written.take rfl unopened
  have none : adjustment? (functionOf t) e.color n = none := by
    rw [Option.eq_none_iff_forall_ne_some]
    intro d adjusted
    obtain ⟨a, named, -⟩ := adjustment?_eq_some_iff.mp adjusted
    exact unknown (.inr ⟨a, named⟩)
  rw [take_function call (mt .inl unknown), first, continueWith_ok, takeAdjustment_cons _ _ comma amount close, none]

section Reading

variable {type : ValueType} {raw : List Char} (bare : Text.isQuoted raw = false) {x : Value α}
include bare

theorem readColor_eq_ok_iff_whole :
    readColor type raw = .ok x ↔ ∃ c, whole type raw take = .ok c ∧ Value.color c = x := by
  simp only [readColor, bare, Bool.false_eq_true, if_false]
  cases (whole type raw take : Except ValueError (Color α)) with
  | error e => simp [Except.map]
  | ok c => simp [Except.map]

/-- **Colours by their expressions.** A text without quotes is accepted where its words write an expression, and stands
for the colour of that expression. -/
theorem readColor_eq_ok_iff :
    readColor type raw = .ok x ↔ ∃ e ws, Lexer.Consists raw ws ∧ Written e ws ∧ Value.color e.color = x := by
  rw [readColor_eq_ok_iff_whole bare]
  constructor
  · rintro ⟨c, accepted, rfl⟩
    obtain ⟨ts, cut, taken⟩ := whole_eq_ok_iff.mp accepted
    obtain ⟨e, front, rfl, written, rfl⟩ := take_eq_ok taken
    exact ⟨e, _, Lexer.consists_iff.mpr ⟨_, cut, by rw [List.append_nil]⟩, written, rfl⟩
  · rintro ⟨e, ws, consists, written, rfl⟩
    obtain ⟨ts, cut, words⟩ := Lexer.consists_iff.mp consists
    have taken := written.take words unopened_nil
    rw [List.append_nil] at taken
    exact ⟨e.color, whole_eq_ok_iff.mpr ⟨ts, cut, taken⟩, rfl⟩

end Reading

end Stylebook.Color
