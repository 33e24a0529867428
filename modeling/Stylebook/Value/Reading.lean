import Stylebook.Token.Lexer
import Stylebook.Value.Dimension
import Stylebook.Value.Error

/-!
# Steps over the tokens of a value

A reading is a step over tokens: it answers a result or a flaw, and the tokens it left. A step that fails
leaves the tokens where it stopped, and `attempt` is what puts them back. Steps follow each other with
`do`; the first flaw ends the row.

`Reading.of` cuts a text into tokens and runs a step over them; what the step leaves is the concern of
`finish`.
-/

set_option autoImplicit false

namespace Stylebook

/-- A step over tokens with a result. -/
def Reading (β : Type) : Type :=
  List Token → Except Flaw β × List Token

namespace Reading

variable {β γ : Type}

instance : Monad Reading where
  pure x := fun ts => (.ok x, ts)
  bind r f := fun ts => match r ts with
    | (.ok x, rest) => f x rest
    | (.error e, rest) => (.error e, rest)

/-- Runs a step behind a result that is already there. -/
def continueWith (result : Except Flaw β × List Token) (f : β → Reading γ) :
    Except Flaw γ × List Token :=
  match result with
  | (.ok x, rest) => f x rest
  | (.error e, rest) => (.error e, rest)

/-- Fails where it stands. -/
def fail (e : Flaw) : Reading β :=
  fun ts => (.error e, ts)

/-- Goes on with a result or fails where it stands. -/
def lift (result : Except Flaw β) : Reading β :=
  fun ts => (result, ts)

/-! ## Looking -/

def peek? : Reading (Option Token) :=
  fun ts => (.ok ts.head?, ts)

/-- The kind of the next token. -/
def peekKind? : Reading (Option TokenKind) :=
  fun ts => (.ok (ts.head?.map (·.kind)), ts)

/-- The kind of the token behind the next one. -/
def peekSecond? : Reading (Option TokenKind) :=
  fun ts => (.ok (ts.tail.head?.map (·.kind)), ts)

def atEnd : Reading Bool :=
  fun ts => (.ok ts.isEmpty, ts)

/-! ## Taking tokens -/

/-- Takes the next token, whatever it is. -/
def advance? : Reading (Option Token)
  | [] => (.ok none, [])
  | t :: rest => (.ok (some t), rest)

/-- Takes the next token if it is of the given kind, and says whether it did. -/
def eat (kind : TokenKind) : Reading Bool
  | [] => (.ok false, [])
  | t :: rest => if t.kind = kind then (.ok true, rest) else (.ok false, t :: rest)

/-- Whether a token is the given word, in any case of its ASCII letters. -/
def isKeyword (word : String) (t : Token) : Bool :=
  t.kind == .ident && Text.sameIgnoringCase t.chars word.toList

/-- Takes the next token if it is the given word, and says whether it did. -/
def eatKeyword (word : String) : Reading Bool
  | [] => (.ok false, [])
  | t :: rest => if isKeyword word t then (.ok true, rest) else (.ok false, t :: rest)

/-- Takes a token of the given kind, or fails and takes nothing. -/
def expect (kind : TokenKind) : Reading Token
  | [] => (.error (.expectedToken kind none), [])
  | t :: rest =>
    if t.kind = kind then (.ok t, rest)
    else (.error (.expectedToken kind (some t.text)), t :: rest)

/-- Fails unless every token was taken. -/
def finish : Reading Unit
  | [] => (.ok (), [])
  | t :: rest => (.error (.leftOver (some t.text)), t :: rest)

/-- Runs a step; if it fails, puts back every token it took. -/
def attempt (r : Reading β) : Reading (Option β) :=
  fun ts => match r ts with
    | (.ok x, rest) => (.ok (some x), rest)
    | (.error _, _) => (.ok none, ts)

/-- Takes the name of a function and the parenthesis behind it, if that is what comes next. -/
def functionName? : Reading (Option Token)
  | t :: u :: rest =>
    if t.kind = .ident ∧ u.kind = .parenOpen then (.ok (some t), rest)
    else (.ok none, t :: u :: rest)
  | ts => (.ok none, ts)

/-- The name of a function in lower case. -/
def functionOf (t : Token) : String :=
  String.ofList (Text.asciiLower t.chars)

/-! ## Numbers -/

section Numbers

variable {α : Type}

/-- Takes a token that stands for a number. -/
def item (value? : Token → Option α) : Reading α
  | [] => (.error (.expectedNumber none), [])
  | t :: rest =>
    match value? t with
    | some n => (.ok n, rest)
    | none => (.error (.expectedNumber (some t.text)), t :: rest)

/-- Takes a number, or a dimension in points or pixels. -/
def number [Scalar α] : Reading α :=
  item Token.number?

/-- Takes a number or a dimension in any unit. -/
def looseNumber [Scalar α] : Reading α :=
  item Token.looseNumber?

/-- Puts a number in front of a list that is still being read. -/
def consTo (x : α) : Except Flaw (List α) × List Token → Except Flaw (List α) × List Token
  | (.ok xs, rest) => (.ok (x :: xs), rest)
  | (.error e, rest) => (.error e, rest)

/-- Takes numbers up to a closing parenthesis or the end, with at most one comma before each but the
first; `first` says that none was taken yet. -/
def items (value? : Token → Option α) (first : Bool) : Reading (List α)
  | [] => (.ok [], [])
  | t :: rest =>
    if t.kind = .parenClose then (.ok [], t :: rest)
    else if first = false ∧ t.kind = .comma then
      match rest with
      | [] => (.error (.expectedNumber none), [])
      | u :: rest =>
        match value? u with
        | some n => consTo n (items value? false rest)
        | none => (.error (.expectedNumber (some u.text)), u :: rest)
    else
      match value? t with
      | some n => consTo n (items value? false rest)
      | none => (.error (.expectedNumber (some t.text)), t :: rest)

theorem consTo_eq_ok {x : α} {r : Except Flaw (List α) × List Token} {xs : List α}
    {rest : List Token} (h : consTo x r = (.ok xs, rest)) :
    ∃ ys, r = (.ok ys, rest) ∧ xs = x :: ys := by
  obtain ⟨r1, r2⟩ := r
  cases r1 with
  | error e => simp [consTo] at h
  | ok ys =>
    simp only [consTo, Prod.mk.injEq, Except.ok.injEq] at h
    exact ⟨ys, by simp [h.2], h.1.symm⟩

/-- Taking numbers never gives back more tokens than there were. -/
theorem items_length {value? : Token → Option α} {first : Bool} {ts rest : List Token} {xs : List α}
    (h : items value? first ts = (.ok xs, rest)) : rest.length ≤ ts.length := by
  fun_induction items value? first ts generalizing xs rest with
  | case1 => cases h; exact Nat.le_refl _
  | case2 => cases h; exact Nat.le_refl _
  | case3 => simp at h
  | case4 _ _ _ _ _ _ _ _ ih =>
    obtain ⟨ys, hy, _⟩ := consTo_eq_ok h
    have := ih hy
    simp only [List.length_cons]; omega
  | case5 => simp at h
  | case6 _ _ _ _ _ _ _ ih =>
    obtain ⟨ys, hy, _⟩ := consTo_eq_ok h
    have := ih hy
    simp only [List.length_cons]; omega
  | case7 => simp at h

/-- Takes numbers in parentheses, with a word in front or without one, or bare numbers. -/
def numericParameters [Scalar α] (word : String) : Reading (List α) := do
  let named ← eatKeyword word
  if named || (← peekKind?) == some .parenOpen then
    let _ ← expect .parenOpen
    let values ← items Token.number? true
    let _ ← expect .parenClose
    pure values
  else items Token.number? true

end Numbers

/-! ## Running -/

/-- Cuts a text into tokens and runs a step over them. -/
def of (type : ValueType) (cs : List Char) (r : Reading β) : Except ValueError β :=
  match Lexer.tokensStrict cs with
  | .error position => .error (.noToken type position)
  | .ok ts =>
    match (r ts).1 with
    | .ok x => .ok x
    | .error e => .error (.invalid type e)

/-- Runs a step over a text and requires that it takes every token. -/
def whole (type : ValueType) (cs : List Char) (r : Reading β) : Except ValueError β :=
  of type cs do
    let x ← r
    finish
    pure x

end Reading

end Stylebook
