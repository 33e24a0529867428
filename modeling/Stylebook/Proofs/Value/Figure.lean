import Stylebook.Proofs.Value.Dimension
import Stylebook.Proofs.Value.Rows
import Stylebook.Value.Figure

/-!
# How figures are written

A figure is a row of numbers in one of three forms: bare, in parentheses, or in parentheses behind its name (`Form`).
Commas may be left out. A text is accepted where its words have one of these forms and the figure can be made of so many
numbers, and what it stands for depends on the numbers alone (`FigureKind.read_iff_form`).
-/

set_option autoImplicit false

namespace Stylebook

/-! ## Forms -/

section Forms

variable {β : Type} (name : List Char) (member : Word → β → Prop)

/-- The words are a row in one of the three forms. -/
inductive Form : List β → List Word → Prop
  | bare {xs : List β} {ws : List Word} (row : Row true member xs ws) : Form xs ws
  | enclosed {o z : Word} {xs : List β} {ws : List Word} (opens : o.kind = .parenOpen) (row : Row true member xs ws)
      (close : z.kind = .parenClose) : Form xs (o :: (ws ++ [z]))
  | named {w o z : Word} {xs : List β} {ws : List Word} (word : w.kind = .ident)
      (same : Text.sameIgnoringCase w.chars name = true) (opens : o.kind = .parenOpen) (row : Row true member xs ws)
      (close : z.kind = .parenClose) : Form xs (w :: o :: (ws ++ [z]))

end Forms

theorem Form.relate {β γ : Type} {name : List Char} {member : Word → β → Prop} {other : Word → γ → Prop}
    {relation : β → γ → Prop} {xs : List β} {ws : List Word} (form : Form name member xs ws)
    (each : ∀ w ∈ ws, ∀ x, member w x → ∃ y, relation x y ∧ other w y) :
    ∃ ys, List.Forall₂ relation xs ys ∧ Form name other ys ws := by
  cases form with
  | bare row =>
    obtain ⟨ys, all, row⟩ := row.relate each
    exact ⟨ys, all, .bare row⟩
  | enclosed opens row close =>
    obtain ⟨ys, all, row⟩ := row.relate fun v hv => each v (by simp [hv])
    exact ⟨ys, all, .enclosed opens row close⟩
  | named word same opens row close =>
    obtain ⟨ys, all, row⟩ := row.relate fun v hv => each v (by simp [hv])
    exact ⟨ys, all, .named word same opens row close⟩

/-! ## The numbers of a form -/

section Numbers

variable {α : Type} [Scalar α] {name : List Char} {vs : List (List Char)} {xs ys : List α} {ws : List Word}

/-- The texts of numbers are read as these numbers. -/
def Denotes (vs : List (List Char)) (xs : List α) : Prop :=
  vs.map Scalar.read? = xs.map some

theorem denotes_iff : Denotes vs xs ↔ List.Forall₂ (fun v x => Scalar.read? v = some x) vs xs := by
  rw [Denotes, ← List.forall₂_eq_eq_eq, List.forall₂_map_left_iff, List.forall₂_map_right_iff]

theorem Denotes.length (h : Denotes vs xs) : vs.length = xs.length := by
  simpa using congrArg List.length h

/-- In every form the numbers have values. -/
theorem exists_denotes [Scalar.ReadsNumbers α] (form : Form name IsNumber vs ws) :
    ∃ xs : List α, Denotes vs xs ∧ Form name (Member Token.number?) xs ws := by
  simp only [denotes_iff]
  refine form.relate fun w _ v number => ?_
  obtain ⟨x, value⟩ := Scalar.ReadsNumbers.exists_read? (α := α) number.figure
  exact ⟨x, value, number.number?.trans value⟩

/-- The words of a text that have values are numbers. -/
theorem exists_isNumber_of_consists {raw : List Char} (consists : Lexer.Consists raw ws)
    (form : Form name (Member Token.number?) xs ws) : ∃ vs, Denotes vs xs ∧ Form name IsNumber vs ws := by
  have each : ∀ w ∈ ws, ∀ x : α, Member Token.number? w x → ∃ v, Scalar.read? v = some x ∧ IsNumber w v :=
    fun w hw x value => exists_isNumber (Lexer.mem_pattern_of_mem_words (consists.2 ▸ hw)) value
  obtain ⟨vs, all, form⟩ := form.relate each
  exact ⟨vs, denotes_iff.mpr all.flip, form⟩

end Numbers

/-! ## Reading forms -/

namespace Reading

variable {α : Type} [Scalar α] {word : String} {xs : List α} {t : Token} {ts rest : List Token}

/-- Takes a row in parentheses. -/
def enclosedItems : Reading (List α) := do
  let _ ← expect .parenOpen
  let values ← items Token.number? true
  let _ ← expect .parenClose
  pure values

theorem enclosedItems_eq_ok_iff :
    (enclosedItems : Reading (List α)) ts = (.ok xs, rest) ↔
      ∃ o front z, ts = o :: (front ++ z :: rest) ∧ o.kind = .parenOpen ∧
        Row true (Member Token.number?) xs (front.map Token.word) ∧ z.kind = .parenClose := by
  constructor
  · intro h
    obtain ⟨o, behind, opened, taken⟩ := bind_eq_ok h
    obtain ⟨rfl, opens⟩ := expect_eq_ok opened
    obtain ⟨values, left, listed, closed⟩ := bind_eq_ok taken
    obtain ⟨front, rfl, -, row⟩ := row_of_items readable_number listed
    obtain ⟨z, after, closed, made⟩ := bind_eq_ok closed
    obtain ⟨rfl, close⟩ := expect_eq_ok closed
    cases made
    exact ⟨o, front, z, rfl, opens, row, close⟩
  · rintro ⟨o, front, z, rfl, opens, row, close⟩
    have ends : Ends (z :: rest) := ends_cons.mpr close
    have listed := items_of_row readable_number ends row
    unfold enclosedItems
    rw [bind_of_ok (expect_cons opens _), bind_of_ok listed]
    exact bind_of_ok (expect_cons close rest) _

theorem numericParameters_named (named : isKeyword word t = true) (ts : List Token) :
    (numericParameters word : Reading (List α)) (t :: ts) = enclosedItems ts := by
  have taken : eatKeyword word (t :: ts) = (.ok true, ts) := if_pos named
  unfold numericParameters
  rw [bind_of_ok taken]
  rfl

theorem numericParameters_enclosed (opens : t.kind = .parenOpen) (ts : List Token) :
    (numericParameters word : Reading (List α)) (t :: ts) = enclosedItems (t :: ts) := by
  have left : eatKeyword word (t :: ts) = (.ok false, t :: ts) := if_neg (by simp [isKeyword, opens])
  unfold numericParameters
  rw [bind_of_ok left]
  simp [bind, peekKind?, opens, enclosedItems]

theorem numericParameters_bare (unnamed : ∀ t ∈ ts.head?, isKeyword word t = false ∧ t.kind ≠ .parenOpen) :
    (numericParameters word : Reading (List α)) ts = items Token.number? true ts := by
  cases ts with
  | nil => rfl
  | cons t ts =>
    obtain ⟨unnamed, unopened⟩ := unnamed t rfl
    have left : eatKeyword word (t :: ts) = (.ok false, t :: ts) := if_neg (by simp [unnamed])
    unfold numericParameters
    rw [bind_of_ok left]
    simp [bind, peekKind?, unopened]

theorem isKeyword_eq_true_iff :
    isKeyword word t = true ↔ t.kind = .ident ∧ Text.sameIgnoringCase t.chars word.toList = true := by
  simp [isKeyword]

/-- A row does not start with a name or a parenthesis. -/
theorem unnamed_of_row (row : Row true (Member (Token.number? (α := α))) xs (ts.map Token.word)) :
    ∀ t ∈ ts.head?, isKeyword word t = false ∧ t.kind ≠ .parenOpen := by
  intro t here
  cases ts with
  | nil => cases here
  | cons u ts =>
    obtain rfl := Option.some.inj here
    cases row with
    | cons first others =>
      rw [Member, Token.number?_word] at first
      constructor
      · rw [Bool.eq_false_iff, ne_eq, isKeyword_eq_true_iff]
        rintro ⟨kind, -⟩
        simp [Token.number?, kind] at first
      · intro kind
        simp [Token.number?, kind] at first

theorem form_of_numericParameters (h : (numericParameters word : Reading (List α)) ts = (.ok xs, [])) :
    Form word.toList (Member Token.number?) xs (ts.map Token.word) := by
  by_cases bare : ∀ t ∈ ts.head?, isKeyword word t = false ∧ t.kind ≠ .parenOpen
  · rw [numericParameters_bare bare] at h
    obtain ⟨front, rfl, -, row⟩ := row_of_items readable_number h
    rw [List.append_nil]
    exact .bare row
  · cases ts with
    | nil => simp at bare
    | cons t ts =>
      by_cases named : isKeyword word t = true
      · rw [numericParameters_named named] at h
        obtain ⟨o, front, z, rfl, opens, row, close⟩ := enclosedItems_eq_ok_iff.mp h
        obtain ⟨kind, same⟩ := isKeyword_eq_true_iff.mp named
        simp only [List.map_cons, List.map_append, List.map_nil]
        exact .named kind same opens row close
      · have opens : t.kind = .parenOpen := by simpa [named] using bare
        rw [numericParameters_enclosed opens] at h
        obtain ⟨o, front, z, same, -, row, close⟩ := enclosedItems_eq_ok_iff.mp h
        obtain ⟨rfl, rfl⟩ := List.cons.inj same
        simp only [List.map_cons, List.map_append, List.map_nil]
        exact .enclosed opens row close

theorem numericParameters_of_form {ws : List Word} (form : Form word.toList (Member Token.number?) xs ws)
    (words : ts.map Token.word = ws) : (numericParameters word : Reading (List α)) ts = (.ok xs, []) := by
  cases form with
  | bare row =>
    subst words
    rw [numericParameters_bare (unnamed_of_row row)]
    have all := items_of_row readable_number ends_nil row
    rwa [List.append_nil] at all
  | enclosed opens row close =>
    simp only [List.map_eq_cons_iff, List.map_eq_append_iff, List.map_eq_nil_iff] at words
    obtain ⟨o, _, rfl, rfl, front, _, rfl, rfl, z, _, rfl, rfl, rfl⟩ := words
    rw [numericParameters_enclosed opens]
    exact enclosedItems_eq_ok_iff.mpr ⟨o, front, z, rfl, opens, row, close⟩
  | named kind same opens row close =>
    simp only [List.map_eq_cons_iff, List.map_eq_append_iff, List.map_eq_nil_iff] at words
    obtain ⟨t, _, rfl, rfl, o, _, rfl, rfl, front, _, rfl, rfl, z, _, rfl, rfl, rfl⟩ := words
    rw [numericParameters_named (isKeyword_eq_true_iff.mpr ⟨kind, same⟩)]
    exact enclosedItems_eq_ok_iff.mpr ⟨o, front, z, rfl, opens, row, close⟩

/-- The numbers of a figure are taken, all of them, where the words have one of the forms. -/
theorem numericParameters_eq_ok_iff :
    (numericParameters word : Reading (List α)) ts = (.ok xs, []) ↔
      Form word.toList (Member Token.number?) xs (ts.map Token.word) :=
  ⟨form_of_numericParameters, fun form => numericParameters_of_form form rfl⟩

end Reading

/-! ## Reading figures -/

section Figures

open Reading

variable {α : Type} [Scalar α] {S : Type → Type} [Shape S] {F : S α} {xs : List α} {ts rest : List Token}
  {type : ValueType} {raw : List Char} {ws : List Word}

/-- What a row of numbers is as a value, or the error that it is none. -/
def built {V : Type} (type : ValueType) (count : Nat) : Option V → Except ValueError V
  | some v => .ok v
  | none => .error (.invalid type (.componentCount count))

theorem takeFigure_of_ok (taken : numericParameters (Shape.name S) ts = (.ok xs, [])) :
    (takeFigure ts : Except Flaw (S α) × List Token) =
      match Shape.ofComponents? xs with
      | some F => (.ok F, [])
      | none => (.error (.componentCount xs.length), []) := by
  unfold takeFigure
  rw [bind_of_ok taken, bind_of_ok (show finish [] = (.ok (), []) from rfl)]
  cases (Shape.ofComponents? xs : Option (S α)) <;> rfl

theorem takeFigure_eq_ok (h : takeFigure ts = (.ok F, rest)) :
    ∃ xs, numericParameters (Shape.name S) ts = (.ok xs, []) ∧ Shape.ofComponents? xs = some F := by
  obtain ⟨xs, behind, taken, others⟩ := bind_eq_ok h
  obtain ⟨_, left, finished, made⟩ := bind_eq_ok others
  cases behind with
  | cons t behind => cases finished
  | nil =>
    refine ⟨xs, taken, ?_⟩
    cases figure : (Shape.ofComponents? xs : Option (S α)) with
    | none =>
      simp only [figure] at made
      cases made
    | some G =>
      simp only [figure] at made
      cases made
      rfl

variable (unquoted : Text.isQuoted raw = false)
include unquoted

/-- A text in one of the forms is read as the figure of its numbers. -/
theorem readFigure_of_form (consists : Lexer.Consists raw ws)
    (form : Form (Shape.name S).toList (Member Token.number?) xs ws) :
    (readFigure type raw : Except ValueError (S α)) = built type xs.length (Shape.ofComponents? xs) := by
  obtain ⟨ts, cut, rfl⟩ := Lexer.consists_iff.mp consists
  have figure := takeFigure_of_ok (S := S) (numericParameters_eq_ok_iff.mpr form)
  rw [readFigure, if_neg (by simp [unquoted]), of_of_tokens cut, figure]
  cases (Shape.ofComponents? xs : Option (S α)) <;> rfl

theorem exists_form_of_readFigure (h : readFigure type raw = .ok F) :
    ∃ ws xs, Lexer.Consists raw ws ∧ Form (Shape.name S).toList (Member Token.number?) xs ws ∧
      Shape.ofComponents? xs = some F := by
  rw [readFigure, if_neg (by simp [unquoted])] at h
  obtain ⟨ts, rest, cut, taken⟩ := exists_of_eq_ok h
  obtain ⟨xs, numbers, figure⟩ := takeFigure_eq_ok taken
  exact ⟨_, xs, Lexer.consists_iff.mpr ⟨ts, cut, rfl⟩, numericParameters_eq_ok_iff.mp numbers, figure⟩

end Figures

/-- The figures that there are. -/
inductive FigureKind where
  | rect
  | offset
  | size
  | point
  | insets

namespace FigureKind

def name : FigureKind → String
  | rect => "rect"
  | offset => "offset"
  | size => "size"
  | point => "point"
  | insets => "insets"

/-- How many numbers can stand for a figure. -/
def lengths : FigureKind → List Nat
  | rect => [4]
  | offset | size | point => [1, 2]
  | insets => [1, 2, 4]

variable {α : Type}

/-- The figure of a row of numbers. -/
def build? : FigureKind → List α → Option (Value α)
  | rect, xs => (Shape.ofComponents? xs).map .rect
  | offset, xs => (Shape.ofComponents? xs).map .offset
  | size, xs => (Shape.ofComponents? xs).map .size
  | point, xs => (Shape.ofComponents? xs).map .point
  | insets, xs => (Shape.ofComponents? xs).map .insets

theorem isSome_build?_iff (k : FigureKind) (xs : List α) : (k.build? xs).isSome ↔ xs.length ∈ k.lengths := by
  match xs with
  | [] | [_] | [_, _] | [_, _, _] | [_, _, _, _] => cases k <;> simp [build?, lengths, Shape.ofComponents?]
  | _ :: _ :: _ :: _ :: _ :: _ => cases k <;> simp [build?, lengths, Shape.ofComponents?]

variable [Scalar α]

/-- Reads a figure of the kind. -/
def read : FigureKind → ValueType → List Char → Except ValueError (Value α)
  | rect => readRect
  | offset => readOffset
  | size => readSize
  | point => readPoint
  | insets => readInsets

section Reading

variable (k : FigureKind) {type : ValueType} {raw raw' : List Char} {ws ws' : List Word} {xs : List α}
  (unquoted : Text.isQuoted raw = false)
include unquoted

theorem read_of_form (consists : Lexer.Consists raw ws) (form : Form k.name.toList (Member Token.number?) xs ws) :
    k.read type raw = built type xs.length (k.build? xs) := by
  have figure (S : Type → Type) [Shape S] (wrap : S α → Value α)
      (form : Form (Shape.name S).toList (Member Token.number?) xs ws) :
      (readFigure type raw).map wrap = built type xs.length ((Shape.ofComponents? xs).map wrap) := by
    rw [readFigure_of_form unquoted consists form]
    cases (Shape.ofComponents? xs : Option (S α)) <;> rfl
  cases k with
  | rect => exact figure Rect _ form
  | offset => exact figure Offset _ form
  | size => exact figure Size _ form
  | point => exact figure Point _ form
  | insets => exact figure Insets _ form

theorem exists_form_of_read {v : Value α} (h : k.read type raw = .ok v) :
    ∃ ws xs, Lexer.Consists raw ws ∧ Form k.name.toList (Member Token.number?) xs ws ∧ k.build? xs = some v := by
  have figure (S : Type → Type) [Shape S] (wrap : S α → Value α) (h : (readFigure type raw).map wrap = .ok v) :
      ∃ ws xs, Lexer.Consists raw ws ∧ Form (Shape.name S).toList (Member Token.number?) xs ws ∧
        (Shape.ofComponents? xs).map wrap = some v := by
    cases read : (readFigure type raw : Except ValueError (S α)) with
    | error e =>
      rw [read] at h
      cases h
    | ok F =>
      rw [read] at h
      cases h
      obtain ⟨ws, xs, consists, form, built⟩ := exists_form_of_readFigure unquoted read
      exact ⟨ws, xs, consists, form, by rw [built, Option.map_some]⟩
  cases k with
  | rect => exact figure Rect _ h
  | offset => exact figure Offset _ h
  | size => exact figure Size _ h
  | point => exact figure Point _ h
  | insets => exact figure Insets _ h

end Reading

/-- **Figures are accepted by their forms.** A text without quotes is accepted where its words are numbers in one of the
forms, and as many as the figure can be made of. It stands for the figure of these numbers, so that the forms and the
separators make no difference. -/
theorem read_iff_form [Scalar.ReadsNumbers α] (k : FigureKind) {type : ValueType} {raw : List Char}
    (unquoted : Text.isQuoted raw = false) :
    ((∃ v : Value α, k.read type raw = .ok v) ↔
      ∃ ws vs, Lexer.Consists raw ws ∧ Form k.name.toList IsNumber vs ws ∧ vs.length ∈ k.lengths) ∧
    (∀ ws vs, Lexer.Consists raw ws → Form k.name.toList IsNumber vs ws →
      ∃ xs : List α, Denotes vs xs ∧ k.read type raw = built type xs.length (k.build? xs)) ∧
    ∀ raw' ws ws' vs vs', Text.isQuoted raw' = false → Lexer.Consists raw ws → Lexer.Consists raw' ws' →
      Form k.name.toList IsNumber vs ws → Form k.name.toList IsNumber vs' ws' →
      vs.map (Scalar.read? (α := α)) = vs'.map Scalar.read? →
      (k.read type raw : Except ValueError (Value α)) = k.read type raw' := by
  have value {raw ws vs} (unquoted : Text.isQuoted raw = false) (consists : Lexer.Consists raw ws)
      (form : Form k.name.toList IsNumber vs ws) :
      ∃ xs : List α, Denotes vs xs ∧ k.read type raw = built type xs.length (k.build? xs) := by
    obtain ⟨xs, denotes, form⟩ := exists_denotes (α := α) form
    exact ⟨xs, denotes, k.read_of_form unquoted consists form⟩
  refine ⟨⟨?_, ?_⟩, fun ws vs => value unquoted, ?_⟩
  · rintro ⟨v, accepted⟩
    obtain ⟨ws, xs, consists, form, built⟩ := k.exists_form_of_read unquoted accepted
    obtain ⟨vs, denotes, form⟩ := exists_isNumber_of_consists consists form
    refine ⟨ws, vs, consists, form, ?_⟩
    rw [denotes.length, ← isSome_build?_iff, built, Option.isSome_some]
  · rintro ⟨ws, vs, consists, form, supported⟩
    obtain ⟨xs, denotes, read⟩ := value unquoted consists form
    rw [denotes.length, ← isSome_build?_iff] at supported
    obtain ⟨v, figure⟩ := Option.isSome_iff_exists.mp supported
    exact ⟨v, by rw [read, figure, built]⟩
  · intro raw' ws ws' vs vs' unquoted' consists consists' form form' same
    obtain ⟨xs, denotes, read⟩ := value unquoted consists form
    obtain ⟨ys, denotes', read'⟩ := value unquoted' consists' form'
    obtain rfl : xs = ys :=
      List.map_injective_iff.mpr (Option.some_injective α) (denotes.symm.trans (same.trans denotes'))
    rw [read, read']

/-- Commas may be left out between numbers, but not stand behind the last one. -/
theorem read_iff_form_separators :
    (Text.isQuoted "RECT(1, 2px 3 4.50)".toList = false ∧
        rect.read .rect "RECT(1, 2px 3 4.50)".toList = .ok (.rect (⟨1, 2, 3, 9 / 2⟩ : Rect Rat)) ∧
        ∃ ws vs, Lexer.Consists "RECT(1, 2px 3 4.50)".toList ws ∧ Form "rect".toList IsNumber vs ws ∧
          vs.length ∈ [4]) ∧
      Text.isQuoted "1, 2, 3, 4,".toList = false ∧
        ¬∃ ws vs, Lexer.Consists "1, 2, 3, 4,".toList ws ∧ Form "rect".toList IsNumber vs ws ∧ vs.length ∈ [4] := by
  have figure : readFigure .rect "RECT(1, 2px 3 4.50)".toList = .ok (⟨1, 2, 3, 9 / 2⟩ : Rect Rat) := by decide +kernel
  have accepted : rect.read .rect "RECT(1, 2px 3 4.50)".toList = .ok (.rect (⟨1, 2, 3, 9 / 2⟩ : Rect Rat)) := by
    rw [read, readRect, figure]
    rfl
  have trailing : readFigure .rect "1, 2, 3, 4,".toList =
      (.error (.invalid .rect (.expectedNumber none)) : Except ValueError (Rect Rat)) := by decide +kernel
  have unquoted : Text.isQuoted "RECT(1, 2px 3 4.50)".toList = false := by decide +kernel
  have unquoted' : Text.isQuoted "1, 2, 3, 4,".toList = false := by decide +kernel
  refine ⟨⟨unquoted, accepted, (rect.read_iff_form unquoted).1.mp ⟨_, accepted⟩⟩, unquoted', fun form => ?_⟩
  obtain ⟨v, read⟩ : ∃ v : Value Rat, rect.read .rect "1, 2, 3, 4,".toList = .ok v :=
    (rect.read_iff_form unquoted').1.mpr form
  rw [FigureKind.read, readRect, trailing] at read
  cases read

end FigureKind

end Stylebook
