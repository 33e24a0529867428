import Stylebook.Token.Basic

/-!
# Why style text cannot be read

A parse error is a cause: a token that does not fit, a declaration without a value, or an end that came
too early. The wording is made from the cause in `ParseError.message`.
-/

set_option autoImplicit false

namespace Stylebook

/-- What was expected where reading stopped. -/
inductive Expectation where
  | token (kind : TokenKind)
  /-- A name directly behind a mark. -/
  | nameAfter (mark : Char)
  | selectorPart
  | propertyName
  /-- Nothing more behind a selector that stands alone. -/
  | endOfSelector
  /-- In the words of a reader of another format. -/
  | other (words : String)
  deriving Repr, DecidableEq

def Expectation.message : Expectation → String
  | .token kind => "expected " ++ kind.name
  | .nameAfter mark => "expected name after '" ++ String.singleton mark ++ "'"
  | .selectorPart => "expected selector part"
  | .propertyName => "expected property name"
  | .endOfSelector => "trailing input after selector"
  | .other words => words

/-- Why style text cannot be read. -/
inductive ParseError where
  /-- The token of this kind and text at the byte offset `position` does not fit. -/
  | unexpected (position : Nat) (expected : Expectation) (kind : TokenKind) (text : String)
  /-- The value that should start at the byte offset `position` is blank. -/
  | emptyValue (position : Nat)
  /-- The text ends too early. -/
  | endOfInput (expected : Expectation)
  deriving Repr, DecidableEq

/-- The error of a token that does not fit. -/
def ParseError.at (t : Token) (expected : Expectation) : ParseError :=
  .unexpected t.start expected t.kind t.text

def ParseError.message : ParseError → String
  | .unexpected position expected kind text =>
    "unexpected token at byte " ++ toString position ++ ": " ++ expected.message ++ ", got "
      ++ kind.name ++ " '" ++ text ++ "'"
  | .emptyValue position =>
    "unexpected token at byte " ++ toString position ++ ": empty declaration value"
  | .endOfInput expected => "unexpected end of input: " ++ expected.message

/-- Takes a token of the given kind. -/
def Token.expect (kind : TokenKind) : List Token → Except ParseError (Token × List Token)
  | [] => .error (.endOfInput (.token kind))
  | t :: rest => if t.kind = kind then .ok (t, rest) else .error (.at t (.token kind))

/-- What `expect` leaves is what stood behind the token it took. -/
theorem Token.expect_eq_ok_iff {kind : TokenKind} {ts rest : List Token} {t : Token} :
    Token.expect kind ts = .ok (t, rest) ↔ ts = t :: rest ∧ t.kind = kind := by
  cases ts with
  | nil => simp [Token.expect]
  | cons u us =>
    by_cases h : u.kind = kind
    · simp only [Token.expect, h, if_true, Except.ok.injEq, Prod.mk.injEq, List.cons.injEq]
      constructor
      · rintro ⟨rfl, rfl⟩; exact ⟨⟨rfl, rfl⟩, h⟩
      · rintro ⟨⟨rfl, rfl⟩, _⟩; exact ⟨rfl, rfl⟩
    · simp only [Token.expect, h, if_false, reduceCtorEq, List.cons.injEq, false_iff]
      rintro ⟨⟨rfl, _⟩, hk⟩
      exact h hk

end Stylebook
