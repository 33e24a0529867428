import Stylebook.Proofs.Value.Calls
import Stylebook.Proofs.Value.Dimension
import Stylebook.Value.Font

/-!
# Fonts as expressions

What a font is read from is an expression: a plain font of one or two components, with functions around it that change
its size or make it follow a text style. `Written e ws` says which words write an expression, and `parse_eq_ok_iff` that
a text is accepted where its words write an expression, with the font that the expression stands for.

There is one place where words could be taken in two ways. Behind a single component, a comma and another component may
belong to the plain font or to the function around it. A function that changes a size takes them for its amount. The
function that sets a text style does not get to see them: a plain font takes what it can. So a text style can only be
named behind a font of more than one word, which is a condition of `Written.styled`.
-/

set_option autoImplicit false

namespace Stylebook

namespace Font

open Reading

/-! ## Expressions -/

/-- The ways to give a font another size. -/
inductive Adjustment where
  | larger
  | smaller
  | exactly

/-- The names of the functions that do this. -/
def Adjustment.names : Adjustment → List String
  | larger => ["larger", "bigger"]
  | smaller => ["smaller"]
  | exactly => ["fontWithSize"]

/-- The text is one of the names, in any case. -/
def Adjustment.IsNamed (a : Adjustment) (name : List Char) : Prop :=
  ∃ n ∈ a.names, Text.sameIgnoringCase name n.toList = true

/-- A font as it is written. -/
inductive Expression (α : Type) where
  | plain (first : Component α) (second : Option (Component α))
  | scaled (inner : Expression α) (style : Option TextStyle)
  | resized (adjustment : Adjustment) (inner : Expression α) (amount : α)

section Meaning

variable {α : Type} [Scalar α]

def Adjustment.apply : Adjustment → Font α → α → Font α
  | larger, f, amount => f.withSize (f.size + amount)
  | smaller, f, amount => f.withSize (f.size - amount)
  | exactly, f, amount => f.withSize amount

/-- The font that an expression stands for, where `usual` is the size of a font that names none. -/
def Expression.font (usual : α) : Expression α → Font α
  | plain first second => ofComponents usual (first :: second.toList)
  | scaled inner style => (inner.font usual).scaled (style.getD .body)
  | resized adjustment inner amount => adjustment.apply (inner.font usual) amount

end Meaning

/-! ## Written expressions -/

/-- The component that a word is, if it is one. -/
def component? {α : Type} [Scalar α] (w : Word) : Option (Component α) :=
  match w.kind with
  | .number => w.token.looseNumber?.map .size
  | .dimension => w.token.looseNumber?.map .size
  | .doubleQuoted => some (.name (Text.trimQuotes w.chars))
  | .singleQuoted => some (.name (Text.trimQuotes w.chars))
  | .ident => some (.name w.chars)
  | _ => none

variable {α : Type} [Scalar α]

/-- The words write the expression. -/
inductive Written : Expression α → List Word → Prop
  | one {w : Word} {c : Component α} (first : component? w = some c) : Written (.plain c none) [w]
  | two {w v : Word} {c d : Component α} (first : component? w = some c) (second : component? v = some d) :
      Written (.plain c (some d)) [w, v]
  | pair {w m v : Word} {c d : Component α} (first : component? w = some c) (comma : m.kind = .comma)
      (second : component? v = some d) : Written (.plain c (some d)) [w, m, v]
  | scaled {w o z : Word} {e : Expression α} {ws : List Word} (call : Call w o)
      (named : Text.sameIgnoringCase w.chars "scaledFont".toList = true) (inner : Written e ws)
      (close : z.kind = .parenClose) : Written (.scaled e none) (w :: o :: (ws ++ [z]))
  | styled {w o m s z : Word} {e : Expression α} {ws : List Word} {style : TextStyle} (call : Call w o)
      (named : Text.sameIgnoringCase w.chars "scaledFont".toList = true) (inner : Written e ws)
      (several : 1 < ws.length) (comma : m.kind = .comma) (name : s.kind = .ident)
      (known : TextStyle.named? s.chars = some style) (close : z.kind = .parenClose) :
      Written (.scaled e (some style)) (w :: o :: (ws ++ [m, s, z]))
  | resized {w o m v z : Word} {a : Adjustment} {e : Expression α} {ws : List Word} {n : α} (call : Call w o)
      (named : a.IsNamed w.chars) (inner : Written e ws) (comma : m.kind = .comma)
      (amount : v.token.number? = some n) (close : z.kind = .parenClose) :
      Written (.resized a e n) (w :: o :: (ws ++ [m, v, z]))

/-- What is written in one word is a component. -/
theorem Written.single {e : Expression α} {ws : List Word} (h : Written e ws) (single : ¬1 < ws.length) :
    ∃ w c, component? w = some c ∧ ws = [w] ∧ e = .plain c none := by
  cases h with
  | one first => exact ⟨_, _, first, rfl, rfl⟩
  | _ => simp at single

/-! ## Names of functions -/

variable {t u : Token} {ts rest : List Token} {f F : Font α}

theorem functionOf_eq_scaled_iff :
    functionOf t = "scaledfont" ↔ Text.sameIgnoringCase t.chars "scaledFont".toList = true :=
  ⟨fun h => named_of_functionOf h rfl, fun h => functionOf_of_named h rfl⟩

theorem functionOf_ne_of_named {a : Adjustment} (named : a.IsNamed t.chars) : functionOf t ≠ "scaledfont" := by
  obtain ⟨name, listed, same⟩ := named
  rw [functionOf_of_named same rfl]
  cases a with
  | larger => rcases List.mem_pair.mp listed with rfl | rfl <;> decide
  | smaller =>
    obtain rfl := List.mem_singleton.mp listed
    decide
  | exactly =>
    obtain rfl := List.mem_singleton.mp listed
    decide

theorem resized?_eq_some_iff {n : α} :
    resized? (functionOf t) f n = some F ↔ ∃ a : Adjustment, a.IsNamed t.chars ∧ a.apply f n = F := by
  constructor
  · intro h
    unfold resized? at h
    split at h
    · rename_i function
      exact ⟨.larger, ⟨"larger", by simp [Adjustment.names], named_of_functionOf function rfl⟩, Option.some.inj h⟩
    · rename_i function
      exact ⟨.larger, ⟨"bigger", by simp [Adjustment.names], named_of_functionOf function rfl⟩, Option.some.inj h⟩
    · rename_i function
      exact ⟨.smaller, ⟨"smaller", by simp [Adjustment.names], named_of_functionOf function rfl⟩, Option.some.inj h⟩
    · rename_i function
      exact ⟨.exactly, ⟨"fontWithSize", by simp [Adjustment.names], named_of_functionOf function rfl⟩,
        Option.some.inj h⟩
    · cases h
  · rintro ⟨a, ⟨name, listed, named⟩, rfl⟩
    cases a with
    | larger =>
      rcases List.mem_pair.mp listed with rfl | rfl
      · rw [show functionOf t = "larger" from functionOf_of_named named rfl]
        rfl
      · rw [show functionOf t = "bigger" from functionOf_of_named named rfl]
        rfl
    | smaller =>
      obtain rfl := List.mem_singleton.mp listed
      rw [show functionOf t = "smaller" from functionOf_of_named named rfl]
      rfl
    | exactly =>
      obtain rfl := List.mem_singleton.mp listed
      rw [show functionOf t = "fontwithsize" from functionOf_of_named named rfl]
      rfl

/-! ## Components -/

theorem unopened_of_component {c : Component α} (h : component? t.word = some c) : Unopened (t :: rest) := by
  rw [unopened_cons]
  intro opens
  simp [component?, opens] at h

theorem takeComponent_cons {c : Component α} (first : component? t.word = some c) (unopened : Unopened rest) :
    takeComponent (t :: rest) = (.ok c, rest) := by
  have number (h : t.looseNumber?.map Component.size = some c) :
      (looseNumber >>= fun n => pure (Component.size n)) (t :: rest) = (.ok c, rest) := by
    obtain ⟨n, value, rfl⟩ := Option.map_eq_some_iff.mp h
    exact bind_of_ok (item_cons value rest) _
  rw [takeComponent]
  cases kind : t.kind with
  | number | dimension => exact number (by simpa [component?, kind] using first)
  | doubleQuoted | singleQuoted => simpa [component?, kind] using first
  | ident =>
    have name : some (Component.name t.chars) = some c := by simpa [component?, kind] using first
    cases name
    exact if_neg unopened
  | _ => simp [component?, kind] at first

theorem takeComponent_eq_ok {c : Component α} (h : takeComponent ts = (.ok c, rest)) :
    ∃ t, ts = t :: rest ∧ component? t.word = some c := by
  cases ts with
  | nil => cases h
  | cons t ts =>
    have number (h : (looseNumber >>= fun n => pure (Component.size n)) (t :: ts) = (.ok c, rest)) :
        ts = rest ∧ t.looseNumber?.map Component.size = some c := by
      obtain ⟨n, behind, taken, made⟩ := bind_eq_ok h
      obtain ⟨t', here, value⟩ := item_eq_ok taken
      cases here
      cases made
      exact ⟨rfl, by rw [value]; rfl⟩
    rw [takeComponent] at h
    cases kind : t.kind with
    | number | dimension =>
      simp only [kind] at h
      obtain ⟨rfl, value⟩ := number h
      exact ⟨t, rfl, by simpa [component?, kind] using value⟩
    | doubleQuoted | singleQuoted =>
      simp only [kind] at h
      cases h
      exact ⟨t, rfl, by simp [component?, kind]⟩
    | ident =>
      simp only [kind] at h
      split at h
      · cases h
      · cases h
        exact ⟨t, rfl, by simp [component?, kind]⟩
    | _ =>
      simp only [kind] at h
      cases h

/-- Marks are no components. -/
theorem takeComponent_of_none (other : (component? t.word : Option (Component α)) = none) :
    ∃ e behind, (takeComponent (t :: rest) : Except Flaw (Component α) × List Token) = (.error e, behind) := by
  cases taken : (takeComponent (t :: rest) : Except Flaw (Component α) × List Token) with
  | mk result behind =>
    cases result with
    | error e => exact ⟨e, behind, rfl⟩
    | ok c =>
      obtain ⟨t', here, first⟩ := takeComponent_eq_ok taken
      cases here
      rw [other] at first
      cases first

theorem component?_of_number? {n : α} (h : t.number? = some n) : component? t.word = some (.size n) := by
  have loose := Token.looseNumber?_of_number? h
  cases kind : t.kind with
  | number | dimension => simp [component?, kind, loose]
  | _ => simp [Token.number?, kind] at h

/-! ## Plain fonts -/

/-- The tokens up to `rest` write an expression that stands for the font. -/
def Writes (usual : α) (ts : List Token) (F : Font α) (rest : List Token) : Prop :=
  ∃ e front, ts = front ++ rest ∧ Written e (front.map Token.word) ∧ e.font usual = F

/-- The second component with the comma in front of it, if there is one. -/
def takeSecond : Reading (Component α) := do
  let _ ← eat .comma
  takeComponent

theorem takeSecond_component {d : Component α} (second : component? t.word = some d) (unopened : Unopened rest) :
    takeSecond (t :: rest) = (.ok d, rest) := by
  have other : t.kind ≠ .comma := by
    intro comma
    simp [component?, comma] at second
  unfold takeSecond
  rw [bind_of_ok (eat_cons_of_ne other rest)]
  exact takeComponent_cons second unopened

theorem takeSecond_comma {d : Component α} (comma : t.kind = .comma) (second : component? u.word = some d)
    (unopened : Unopened rest) : takeSecond (t :: u :: rest) = (.ok d, rest) := by
  unfold takeSecond
  rw [bind_of_ok (eat_cons comma (u :: rest))]
  exact takeComponent_cons second unopened

theorem takeSecond_nil : (takeSecond [] : Except Flaw (Component α) × List Token) = (.error (.expectedFont none), []) :=
  rfl

theorem takeSecond_close (close : t.kind = .parenClose) :
    ∃ e behind, (takeSecond (t :: rest) : Except Flaw (Component α) × List Token) = (.error e, behind) := by
  unfold takeSecond
  rw [bind_of_ok (eat_cons_of_ne (by simp [close]) rest)]
  exact takeComponent_of_none (by simp [component?, close])

theorem takeSecond_eq_ok {d : Component α} (h : takeSecond ts = (.ok d, rest)) :
    ∃ u, component? u.word = some d ∧ (ts = u :: rest ∨ ∃ m, m.kind = .comma ∧ ts = m :: u :: rest) := by
  obtain ⟨eaten, behind, ate, second⟩ := bind_eq_ok h
  obtain ⟨u, rfl, component⟩ := takeComponent_eq_ok second
  refine ⟨u, component, ?_⟩
  cases eaten with
  | false => exact .inl (eat_eq_false ate)
  | true =>
    obtain ⟨m, rfl, comma⟩ := eat_eq_true ate
    exact .inr ⟨m, comma, rfl⟩

section Plain

variable {c d : Component α} {behind left : List Token}

theorem takePlain_single (first : takeComponent ts = (.ok c, rest)) (usual : α) :
    takePlain usual false ts = (.ok (ofComponents usual [c]), rest) := by
  unfold takePlain
  rw [bind_of_ok first]
  rfl

theorem takePlain_first {e : Flaw} (first : takeComponent ts = (.ok c, behind))
    (second : (takeSecond behind : Except Flaw (Component α) × List Token) = (.error e, left)) (usual : α) :
    takePlain usual true ts = (.ok (ofComponents usual [c]), behind) := by
  unfold takePlain
  rw [bind_of_ok first]
  exact bind_of_ok (attempt_of_error second) _

theorem takePlain_both (first : takeComponent ts = (.ok c, behind)) (second : takeSecond behind = (.ok d, rest))
    (usual : α) : takePlain usual true ts = (.ok (ofComponents usual [c, d]), rest) := by
  unfold takePlain
  rw [bind_of_ok first]
  exact bind_of_ok (attempt_of_ok second) _

theorem takePlain_eq_ok {usual : α} {second : Bool} (h : takePlain usual second ts = (.ok F, rest)) :
    Writes usual ts F rest := by
  obtain ⟨c, behind, first, others⟩ := bind_eq_ok h
  obtain ⟨t, rfl, component⟩ := takeComponent_eq_ok first
  cases second with
  | false =>
    cases others
    exact ⟨.plain c none, [t], rfl, .one component, rfl⟩
  | true =>
    obtain ⟨d?, left, attempted, made⟩ := bind_eq_ok others
    rcases attempt_eq_ok attempted with ⟨d, rfl, taken⟩ | ⟨rfl, rfl⟩
    · cases made
      obtain ⟨u, component', rfl | ⟨m, comma, rfl⟩⟩ := takeSecond_eq_ok taken
      · exact ⟨.plain c (some d), [t, u], rfl, .two component component', rfl⟩
      · exact ⟨.plain c (some d), [t, m, u], rfl, .pair component comma component', rfl⟩
    · cases made
      exact ⟨.plain c none, [t], rfl, .one component, rfl⟩

end Plain

/-! ## Text styles and amounts behind a font -/

section Scaling

variable {β : Type} {f F : Font β} {m s z : Token} {style : TextStyle}

theorem takeScaling_close (close : z.kind = .parenClose) (f : Font β) :
    takeScaling f (z :: rest) = (.ok (f.scaled .body), rest) := by
  unfold takeScaling
  rw [bind_of_ok (eat_cons_of_ne (by simp [close]) rest)]
  exact bind_of_ok (expect_cons close rest) _

theorem takeScaling_style (comma : m.kind = .comma) (name : s.kind = .ident)
    (known : TextStyle.named? s.chars = some style) (close : z.kind = .parenClose) (f : Font β) :
    takeScaling f (m :: s :: z :: rest) = (.ok (f.scaled style), rest) := by
  unfold takeScaling
  rw [bind_of_ok (eat_cons comma (s :: z :: rest))]
  refine (bind_of_ok (expect_cons name (z :: rest)) _).trans ?_
  simp only [known]
  exact bind_of_ok (expect_cons close rest) _

theorem takeScaling_unknown (comma : m.kind = .comma) (name : s.kind = .ident)
    (unknown : TextStyle.named? s.chars = none) (f : Font β) :
    takeScaling f (m :: s :: rest) = (.error (.unknownTextStyle s.text), rest) := by
  unfold takeScaling
  rw [bind_of_ok (eat_cons comma (s :: rest))]
  refine (bind_of_ok (expect_cons name rest) _).trans ?_
  simp only [unknown]
  rfl

theorem takeScaling_eq_ok (h : takeScaling f ts = (.ok F, rest)) :
    (∃ z, ts = z :: rest ∧ z.kind = .parenClose ∧ F = f.scaled .body) ∨
      ∃ m s z style, ts = m :: s :: z :: rest ∧ m.kind = .comma ∧ s.kind = .ident ∧
        TextStyle.named? s.chars = some style ∧ z.kind = .parenClose ∧ F = f.scaled style := by
  obtain ⟨eaten, behind, ate, taken⟩ := bind_eq_ok h
  cases eaten with
  | false =>
    obtain ⟨z, left, closed, made⟩ := bind_eq_ok taken
    cases made
    obtain ⟨rfl, close⟩ := expect_eq_ok closed
    obtain rfl := eat_eq_false ate
    exact .inl ⟨z, rfl, close, rfl⟩
  | true =>
    obtain ⟨m, rfl, comma⟩ := eat_eq_true ate
    obtain ⟨s, left, named, styled⟩ := bind_eq_ok taken
    obtain ⟨rfl, name⟩ := expect_eq_ok named
    cases known : TextStyle.named? s.chars with
    | none =>
      simp only [known] at styled
      cases styled
    | some style =>
      simp only [known] at styled
      obtain ⟨z, left, closed, made⟩ := bind_eq_ok styled
      cases made
      obtain ⟨rfl, close⟩ := expect_eq_ok closed
      exact .inr ⟨m, s, z, style, rfl, comma, name, known, close, rfl⟩

end Scaling

section Amounts

variable {m v z : Token} {n : α}

theorem takeAmount_cons (comma : m.kind = .comma) (amount : v.number? = some n) (close : z.kind = .parenClose)
    (f : Font α) : takeAmount f (m :: v :: z :: rest) = (.ok (f, n), rest) :=
  argument_cons comma amount close rest

theorem takeAmount_close (close : z.kind = .parenClose) (f : Font α) :
    takeAmount f (z :: rest) = (.error (.expectedToken .comma (some z.text)), z :: rest) := by
  unfold takeAmount
  exact bind_of_error (expect_cons_of_ne (by simp [close]) rest) _

theorem takeAmount_eq_ok {arguments : Font α × α} (h : takeAmount f ts = (.ok arguments, rest)) :
    ∃ m v z n, ts = m :: v :: z :: rest ∧ m.kind = .comma ∧ v.number? = some n ∧ z.kind = .parenClose ∧
      arguments = (f, n) := by
  obtain ⟨m, v, z, n, left, rfl, comma, amount, close, made⟩ := argument_eq_ok h
  cases made
  exact ⟨m, v, z, n, rfl, comma, amount, close, rfl⟩

theorem resize_of_named {a : Adjustment} (named : a.IsNamed t.chars) (f : Font α) (n : α) (rest : List Token) :
    resize (functionOf t) (f, n) rest = (.ok (a.apply f n), rest) := by
  unfold resize
  rw [resized?_eq_some_iff.mpr ⟨a, named, rfl⟩]
  rfl

theorem resize_eq_ok (h : resize (functionOf t) (f, n) ts = (.ok F, rest)) :
    ts = rest ∧ ∃ a : Adjustment, a.IsNamed t.chars ∧ a.apply f n = F := by
  unfold resize at h
  cases made : resized? (functionOf t) f n with
  | none =>
    simp only [made] at h
    cases h
  | some g =>
    simp only [made] at h
    cases h
    exact ⟨rfl, resized?_eq_some_iff.mp made⟩

end Amounts

/-! ## What is taken is written -/

theorem take_plain (unopened : Unopened rest) (usual : α) (second : Bool) :
    take usual second (t :: rest) = takePlain usual second (t :: rest) := by
  cases rest with
  | nil => simp [take]
  | cons u rest =>
    rw [unopened_cons] at unopened
    rw [take, if_neg (by simp [unopened])]

/-- A single component would have taken the comma and the name behind it. -/
theorem several_of_take {usual : α} {m s z : Token} {e : Expression α} {front : List Token}
    (written : Written e (front.map Token.word)) (comma : m.kind = .comma) (name : s.kind = .ident)
    (close : z.kind = .parenClose)
    (taken : take usual true (front ++ m :: s :: z :: rest) = (.ok f, m :: s :: z :: rest)) :
    1 < (front.map Token.word).length := by
  by_contra single
  obtain ⟨w, c, first, words, rfl⟩ := written.single single
  obtain ⟨t, rfl, rfl⟩ := List.map_eq_singleton_iff.mp words
  have unopened : Unopened (m :: s :: z :: rest) := unopened_of_kind comma (by decide)
  have second : component? s.word = some (Component.name (α := α) s.chars) := by simp [component?, name]
  have behind : takeSecond (m :: s :: z :: rest) = (.ok (Component.name (α := α) s.chars), z :: rest) :=
    takeSecond_comma comma second (unopened_of_kind close (by decide))
  rw [List.singleton_append, take_plain unopened, takePlain_both (takeComponent_cons first unopened) behind] at taken
  have same := congrArg List.length (Prod.mk.inj taken).2
  simp at same

theorem Writes.scaled {usual : α} {behind : List Token} (call : Call t.word u.word)
    (named : functionOf t = "scaledfont") (inner : Writes usual ts f behind)
    (first : take usual true ts = (.ok f, behind)) (scaled : takeScaling f behind = (.ok F, rest)) :
    Writes usual (t :: u :: ts) F rest := by
  obtain ⟨e, front, rfl, written, rfl⟩ := inner
  have same := functionOf_eq_scaled_iff.mp named
  rcases takeScaling_eq_ok scaled with
    ⟨z, rfl, close, rfl⟩ | ⟨m, s, z, style, rfl, comma, name, known, close, rfl⟩
  · refine ⟨.scaled e none, t :: u :: (front ++ [z]), by simp, ?_, rfl⟩
    simp only [List.map_cons, List.map_append, List.map_nil]
    exact .scaled call same written close
  · refine ⟨.scaled e (some style), t :: u :: (front ++ [m, s, z]), by simp, ?_, rfl⟩
    simp only [List.map_cons, List.map_append, List.map_nil]
    exact .styled call same written (several_of_take written comma name close first) comma name known close

theorem Writes.resized {usual : α} {behind left : List Token} {arguments : Font α × α} (call : Call t.word u.word)
    (inner : Writes usual ts f behind) (counted : takeAmount f behind = (.ok arguments, left))
    (resized : resize (functionOf t) arguments left = (.ok F, rest)) : Writes usual (t :: u :: ts) F rest := by
  obtain ⟨e, front, rfl, written, rfl⟩ := inner
  obtain ⟨m, v, z, n, rfl, comma, amount, close, rfl⟩ := takeAmount_eq_ok counted
  obtain ⟨rfl, a, named, rfl⟩ := resize_eq_ok resized
  refine ⟨.resized a e n, t :: u :: (front ++ [m, v, z]), by simp, ?_, rfl⟩
  simp only [List.map_cons, List.map_append, List.map_nil]
  exact .resized call named written comma amount close

theorem take_eq_ok {usual : α} {second : Bool} (h : take usual second ts = (.ok F, rest)) :
    Writes usual ts F rest := by
  fun_induction take usual second ts generalizing F rest with
  | case1 second t u inner call named ih =>
    obtain ⟨f, behind, first, scaled⟩ := continueWith_eq_ok h
    exact Writes.scaled ⟨call.1, call.2⟩ named (ih first) first scaled
  | case2 second t u inner call other arguments left tried ih =>
    obtain ⟨f, behind, first, counted⟩ := continueWith_eq_ok tried
    exact Writes.resized ⟨call.1, call.2⟩ (ih first) counted h
  | case3 second t u inner call other e left failed ih₁ ih₂ =>
    obtain ⟨arguments, left, tried, resized⟩ := continueWith_eq_ok h
    obtain ⟨f, behind, first, counted⟩ := continueWith_eq_ok tried
    exact Writes.resized ⟨call.1, call.2⟩ (ih₂ first) counted resized
  | case4 => exact takePlain_eq_ok h
  | case5 => exact takePlain_eq_ok h

/-! ## What is written is taken -/

/-- What may stand behind an expression of these words. -/
inductive Behind (ws : List Word) : List Token → Prop
  | nothing : Behind ws []
  | close {z : Token} {rest : List Token} (close : z.kind = .parenClose) : Behind ws (z :: rest)
  | comma {m : Token} {rest : List Token} (comma : m.kind = .comma) (several : 1 < ws.length) : Behind ws (m :: rest)

theorem Behind.unopened {ws : List Word} (h : Behind ws rest) : Unopened rest := by
  cases h with
  | nothing => exact unopened_nil
  | close close => exact unopened_of_kind close (by decide)
  | comma comma => exact unopened_of_kind comma (by decide)

theorem take_scaled (call : Call t.word u.word)
    (named : Text.sameIgnoringCase t.chars "scaledFont".toList = true) (usual : α) (second : Bool) (inner : List Token) :
    take usual second (t :: u :: inner) = continueWith (take usual true inner) takeScaling := by
  rw [take, if_pos ⟨call.name, call.opens⟩, if_pos (functionOf_eq_scaled_iff.mpr named)]

section Resizing

variable {a : Adjustment} {n : α} {inner behind left : List Token}

/-- The first way to read the arguments of a function that changes sizes. -/
theorem take_resized (call : Call t.word u.word) (named : a.IsNamed t.chars) {usual : α}
    (first : take usual true inner = (.ok f, behind)) (amount : takeAmount f behind = (.ok (f, n), rest))
    (second : Bool) : take usual second (t :: u :: inner) = (.ok (a.apply f n), rest) := by
  rw [take, if_pos ⟨call.name, call.opens⟩, if_neg (functionOf_ne_of_named named), first, continueWith_ok, amount]
  exact resize_of_named named f n rest

/-- The second way, if the first one fails. -/
theorem take_resized_single (call : Call t.word u.word) (named : a.IsNamed t.chars) {usual : α} {g : Font α}
    {closing : List Token} {e : Flaw} (first : take usual true inner = (.ok g, closing))
    (failed : takeAmount g closing = (.error e, left)) (single : take usual false inner = (.ok f, behind))
    (amount : takeAmount f behind = (.ok (f, n), rest)) (second : Bool) :
    take usual second (t :: u :: inner) = (.ok (a.apply f n), rest) := by
  rw [take, if_pos ⟨call.name, call.opens⟩, if_neg (functionOf_ne_of_named named), first, continueWith_ok, failed]
  simp only [single, continueWith_ok, amount]
  exact resize_of_named named f n rest

end Resizing

/-- Tokens with these words are taken, all of them and nothing behind them, and stand for the expression. -/
def Taken (usual : α) (e : Expression α) (ws : List Word) : Prop :=
  ∀ ts rest, ts.map Token.word = ws → Behind ws rest → take usual true (ts ++ rest) = (.ok (e.font usual), rest)

section Taken

variable {usual : α} {e : Expression α} {c d : Component α} {w o m v s z : Word} {ws : List Word}

theorem taken_one (first : component? w = some c) : Taken usual (.plain c none) [w] := by
  intro ts rest words behind
  obtain ⟨t, rfl, rfl⟩ := List.map_eq_singleton_iff.mp words
  have component := takeComponent_cons first behind.unopened
  rw [List.singleton_append, take_plain behind.unopened]
  cases behind with
  | nothing => exact takePlain_first component takeSecond_nil usual
  | close close =>
    obtain ⟨e, left, second⟩ := takeSecond_close (α := α) close
    exact takePlain_first component second usual
  | comma comma several => simp at several

theorem taken_two (first : component? w = some c) (second : component? v = some d) :
    Taken usual (.plain c (some d)) [w, v] := by
  intro ts rest words behind
  simp only [List.map_eq_cons_iff, List.map_eq_nil_iff] at words
  obtain ⟨t, _, rfl, rfl, u, _, rfl, rfl, rfl⟩ := words
  have unopened : Unopened (u :: rest) := unopened_of_component second
  exact (take_plain unopened usual true).trans
    (takePlain_both (takeComponent_cons first unopened) (takeSecond_component second behind.unopened) usual)

theorem taken_pair (first : component? w = some c) (comma : m.kind = .comma) (second : component? v = some d) :
    Taken usual (.plain c (some d)) [w, m, v] := by
  intro ts rest words behind
  simp only [List.map_eq_cons_iff, List.map_eq_nil_iff] at words
  obtain ⟨t, _, rfl, rfl, m, _, rfl, rfl, u, _, rfl, rfl, rfl⟩ := words
  have unopened : Unopened (m :: u :: rest) := unopened_of_kind comma (by decide)
  exact (take_plain unopened usual true).trans
    (takePlain_both (takeComponent_cons first unopened) (takeSecond_comma comma second behind.unopened) usual)

theorem Taken.scaled (call : Call w o) (named : Text.sameIgnoringCase w.chars "scaledFont".toList = true)
    (inner : Taken usual e ws) (close : z.kind = .parenClose) :
    Taken usual (.scaled e none) (w :: o :: (ws ++ [z])) := by
  intro ts rest words behind
  simp only [List.map_eq_cons_iff, List.map_eq_append_iff, List.map_eq_nil_iff] at words
  obtain ⟨t, _, rfl, rfl, u, _, rfl, rfl, front, _, rfl, rfl, z, _, rfl, rfl, rfl⟩ := words
  have first := inner front (z :: rest) rfl (.close close)
  simp only [List.cons_append, List.append_assoc, List.nil_append]
  rw [take_scaled call named, first, continueWith_ok]
  exact takeScaling_close close _

theorem Taken.styled {style : TextStyle} (call : Call w o)
    (named : Text.sameIgnoringCase w.chars "scaledFont".toList = true) (inner : Taken usual e ws)
    (several : 1 < ws.length) (comma : m.kind = .comma) (name : s.kind = .ident)
    (known : TextStyle.named? s.chars = some style) (close : z.kind = .parenClose) :
    Taken usual (.scaled e (some style)) (w :: o :: (ws ++ [m, s, z])) := by
  intro ts rest words behind
  simp only [List.map_eq_cons_iff, List.map_eq_append_iff, List.map_eq_nil_iff] at words
  obtain ⟨t, _, rfl, rfl, u, _, rfl, rfl, front, _, rfl, rfl, m, _, rfl, rfl, s, _, rfl, rfl, z, _, rfl, rfl, rfl⟩ :=
    words
  have first := inner front (m :: s :: z :: rest) rfl (.comma comma several)
  simp only [List.cons_append, List.append_assoc, List.nil_append]
  rw [take_scaled call named, first, continueWith_ok]
  exact takeScaling_style comma name known close _

theorem Taken.resized {a : Adjustment} {n : α} (call : Call w o) (named : a.IsNamed w.chars) (written : Written e ws)
    (inner : Taken usual e ws) (comma : m.kind = .comma) (amount : v.token.number? = some n)
    (close : z.kind = .parenClose) : Taken usual (.resized a e n) (w :: o :: (ws ++ [m, v, z])) := by
  intro ts rest words behind
  simp only [List.map_eq_cons_iff, List.map_eq_append_iff, List.map_eq_nil_iff] at words
  obtain ⟨t, _, rfl, rfl, u, _, rfl, rfl, front, _, rfl, rfl, m, _, rfl, rfl, v, _, rfl, rfl, z, _, rfl, rfl, rfl⟩ :=
    words
  rw [Token.number?_word] at amount
  have counted (f : Font α) : takeAmount f (m :: v :: z :: rest) = (.ok (f, n), rest) :=
    takeAmount_cons comma amount close f
  simp only [List.cons_append, List.append_assoc, List.nil_append]
  by_cases several : 1 < (front.map Token.word).length
  · have first := inner front (m :: v :: z :: rest) rfl (.comma comma several)
    exact take_resized call named first (counted _) true
  · -- The amount is first taken for a second component, so that the font alone takes the second way.
    obtain ⟨w, c, component, single, rfl⟩ := written.single several
    obtain ⟨x, rfl, rfl⟩ := List.map_eq_singleton_iff.mp single
    have unopened : Unopened (m :: v :: z :: rest) := unopened_of_kind comma (by decide)
    have first := takeComponent_cons component unopened
    have second : takeSecond (m :: v :: z :: rest) = (.ok (.size n), z :: rest) :=
      takeSecond_comma comma (component?_of_number? amount) (unopened_of_kind close (by decide))
    have both := (take_plain unopened usual true).trans (takePlain_both first second usual)
    have alone := (take_plain unopened usual false).trans (takePlain_single first usual)
    exact take_resized_single call named both (takeAmount_close close _) alone (counted _) true

end Taken

/-- Written expressions are taken. -/
theorem Written.taken {e : Expression α} {ws : List Word} (written : Written e ws) (usual : α) :
    Taken usual e ws := by
  induction written with
  | one first => exact taken_one first
  | two first second => exact taken_two first second
  | pair first comma second => exact taken_pair first comma second
  | scaled call named inner close ih => exact ih.scaled call named close
  | styled call named inner several comma name known close ih =>
    exact ih.styled call named several comma name known close
  | resized call named inner comma amount close ih => exact ih.resized call named inner comma amount close

/-- A word behind a font of several words has to be a text style. -/
theorem take_unknown {m s : Token} {e : Expression α} {front : List Token} (call : Call t.word u.word)
    (named : Text.sameIgnoringCase t.chars "scaledFont".toList = true) (written : Written e (front.map Token.word))
    (several : 1 < (front.map Token.word).length) (comma : m.kind = .comma) (name : s.kind = .ident)
    (unknown : TextStyle.named? s.chars = none) (usual : α) (second : Bool) :
    take usual second (t :: u :: (front ++ m :: s :: rest)) = (.error (.unknownTextStyle s.text), rest) := by
  have first := written.taken usual front (m :: s :: rest) rfl (.comma comma several)
  rw [take_scaled call named, first, continueWith_ok]
  exact takeScaling_unknown comma name unknown (e.font usual)

/-- **Fonts by their expressions.** A text is accepted where its words write an expression, and stands for the font of
that expression. -/
theorem parse_eq_ok_iff {usual : α} {type : ValueType} {raw : List Char} :
    parse usual type raw = .ok F ↔ ∃ e ws, Lexer.Consists raw ws ∧ Written e ws ∧ e.font usual = F := by
  constructor
  · intro h
    obtain ⟨ts, cut, taken⟩ := whole_eq_ok_iff.mp h
    obtain ⟨e, front, rfl, written, font⟩ := take_eq_ok taken
    exact ⟨e, _, Lexer.consists_iff.mpr ⟨_, cut, by rw [List.append_nil]⟩, written, font⟩
  · rintro ⟨e, ws, consists, written, rfl⟩
    obtain ⟨ts, cut, words⟩ := Lexer.consists_iff.mp consists
    have taken := written.taken usual ts [] words .nothing
    rw [List.append_nil] at taken
    exact whole_eq_ok_iff.mpr ⟨ts, cut, taken⟩

end Font

end Stylebook
