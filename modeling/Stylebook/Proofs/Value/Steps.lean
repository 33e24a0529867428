import Stylebook.Proofs.Token.Words
import Stylebook.Value.Reading

/-!
# What a step over tokens answers

For each way in which steps are put together, and for each single step, there is a lemma that says when it succeeds and
what it leaves, in both directions where both are used. With these, a reader is followed token by token without a look
into the steps that it is made of.
-/

set_option autoImplicit false

namespace Stylebook.Reading

variable {α β γ : Type} {ts rest : List Token}

/-! ## Steps in a row -/

theorem bind_eq (r : Reading β) (f : β → Reading γ) (ts : List Token) : (r >>= f) ts = continueWith (r ts) f := rfl

@[simp] theorem continueWith_ok (x : β) (rest : List Token) (f : β → Reading γ) :
    continueWith (.ok x, rest) f = f x rest := rfl

@[simp] theorem continueWith_error (e : Flaw) (rest : List Token) (f : β → Reading γ) :
    continueWith (.error e, rest) f = (.error e, rest) := rfl

theorem continueWith_eq_ok {outcome : Except Flaw β × List Token} {f : β → Reading γ} {y : γ}
    (h : continueWith outcome f = (.ok y, rest)) : ∃ x ts, outcome = (.ok x, ts) ∧ f x ts = (.ok y, rest) := by
  obtain ⟨result, ts⟩ := outcome
  cases result with
  | ok x => exact ⟨x, ts, rfl, h⟩
  | error e => cases h

theorem bind_eq_ok {r : Reading β} {f : β → Reading γ} {y : γ} (h : (r >>= f) ts = (.ok y, rest)) :
    ∃ x ts', r ts = (.ok x, ts') ∧ f x ts' = (.ok y, rest) :=
  continueWith_eq_ok h

theorem bind_of_ok {r : Reading β} {x : β} (h : r ts = (.ok x, rest)) (f : β → Reading γ) :
    (r >>= f) ts = f x rest := by
  rw [bind_eq, h, continueWith_ok]

theorem bind_of_error {r : Reading β} {e : Flaw} (h : r ts = (.error e, rest)) (f : β → Reading γ) :
    (r >>= f) ts = (.error e, rest) := by
  rw [bind_eq, h, continueWith_error]

/-! ## Single steps -/

theorem expect_cons {kind : TokenKind} {t : Token} (here : t.kind = kind) (rest : List Token) :
    expect kind (t :: rest) = (.ok t, rest) := if_pos here

theorem expect_eq_ok {kind : TokenKind} {t : Token} (h : expect kind ts = (.ok t, rest)) :
    ts = t :: rest ∧ t.kind = kind := by
  cases ts with
  | nil => cases h
  | cons u ts =>
    simp only [expect] at h
    split at h
    · rename_i here
      cases h
      exact ⟨rfl, here⟩
    · cases h

theorem eat_cons {kind : TokenKind} {t : Token} (here : t.kind = kind) (rest : List Token) :
    eat kind (t :: rest) = (.ok true, rest) := if_pos here

theorem eat_cons_of_ne {kind : TokenKind} {t : Token} (other : t.kind ≠ kind) (rest : List Token) :
    eat kind (t :: rest) = (.ok false, t :: rest) := if_neg other

theorem expect_cons_of_ne {kind : TokenKind} {t : Token} (other : t.kind ≠ kind) (rest : List Token) :
    expect kind (t :: rest) = (.error (.expectedToken kind (some t.text)), t :: rest) := if_neg other

theorem eat_eq_true {kind : TokenKind} (h : eat kind ts = (.ok true, rest)) :
    ∃ t, ts = t :: rest ∧ t.kind = kind := by
  cases ts with
  | nil => cases h
  | cons t ts =>
    simp only [eat] at h
    split at h
    · rename_i here
      cases h
      exact ⟨t, rfl, here⟩
    · cases h

theorem eat_eq_false {kind : TokenKind} (h : eat kind ts = (.ok false, rest)) : ts = rest := by
  cases ts with
  | nil => cases h; rfl
  | cons t ts =>
    simp only [eat] at h
    split at h
    · cases h
    · cases h
      rfl

theorem item_cons {value? : Token → Option α} {t : Token} {x : α} (value : value? t = some x) (rest : List Token) :
    item value? (t :: rest) = (.ok x, rest) := by
  simp [item, value]

theorem item_eq_ok {value? : Token → Option α} {x : α} (h : item value? ts = (.ok x, rest)) :
    ∃ t, ts = t :: rest ∧ value? t = some x := by
  cases ts with
  | nil => cases h
  | cons t ts =>
    simp only [item] at h
    split at h
    · rename_i value
      cases h
      exact ⟨t, rfl, value⟩
    · cases h

/-- A step that finds no number takes nothing. -/
theorem item_eq_error {value? : Token → Option α} {e : Flaw} (h : item value? ts = (.error e, rest)) :
    rest = ts ∧ ∃ found, e = .expectedNumber found := by
  cases ts with
  | nil =>
    cases h
    exact ⟨rfl, none, rfl⟩
  | cons t ts =>
    simp only [item] at h
    split at h
    · cases h
    · cases h
      exact ⟨rfl, _, rfl⟩

/-! ## The last argument of a function -/

section Argument

variable {value? : Token → Option α} {k : α → Reading β} {x : α}

/-- A step behind a comma, a value and the parenthesis that closes the call. -/
theorem argument_cons {m v z : Token} (comma : m.kind = .comma) (value : value? v = some x)
    (close : z.kind = .parenClose) (rest : List Token) :
    (do
      let _ ← expect .comma
      let x ← item value?
      let _ ← expect .parenClose
      k x : Reading β) (m :: v :: z :: rest) = k x rest := by
  rw [bind_of_ok (expect_cons comma (v :: z :: rest)), bind_of_ok (item_cons value (z :: rest))]
  exact bind_of_ok (expect_cons close rest) _

theorem argument_eq_ok {y : β}
    (h : (do
      let _ ← expect .comma
      let x ← item value?
      let _ ← expect .parenClose
      k x : Reading β) ts = (.ok y, rest)) :
    ∃ m v z x left, ts = m :: v :: z :: left ∧ m.kind = .comma ∧ value? v = some x ∧ z.kind = .parenClose ∧
      k x left = (.ok y, rest) := by
  obtain ⟨m, behind, separated, counted⟩ := bind_eq_ok h
  obtain ⟨rfl, comma⟩ := expect_eq_ok separated
  obtain ⟨x, left, taken, closed⟩ := bind_eq_ok counted
  obtain ⟨v, rfl, value⟩ := item_eq_ok taken
  obtain ⟨z, behind, closed, made⟩ := bind_eq_ok closed
  obtain ⟨rfl, close⟩ := expect_eq_ok closed
  exact ⟨m, v, z, x, behind, rfl, comma, value, close, made⟩

end Argument

/-! ## Attempts -/

theorem attempt_of_ok {r : Reading β} {x : β} (h : r ts = (.ok x, rest)) : attempt r ts = (.ok (some x), rest) := by
  simp [attempt, h]

theorem attempt_of_error {r : Reading β} {e : Flaw} (h : r ts = (.error e, rest)) :
    attempt r ts = (.ok none, ts) := by
  simp [attempt, h]

/-- An attempt that comes to nothing has taken nothing. -/
theorem attempt_eq_ok {r : Reading β} {x? : Option β} (h : attempt r ts = (.ok x?, rest)) :
    (∃ x, x? = some x ∧ r ts = (.ok x, rest)) ∨ (x? = none ∧ rest = ts) := by
  cases tried : r ts with
  | mk result behind =>
    cases result with
    | ok x =>
      rw [attempt_of_ok tried] at h
      cases h
      exact .inl ⟨x, rfl, rfl⟩
    | error e =>
      rw [attempt_of_error tried] at h
      cases h
      exact .inr ⟨rfl, rfl⟩

/-! ## Names of functions -/

section Functions

variable {t : Token} {name lower : String}

theorem functionOf_of_named (named : Text.sameIgnoringCase t.chars name.toList = true)
    (small : String.ofList (Text.asciiLower name.toList) = lower) : functionOf t = lower := by
  rw [functionOf, beq_iff_eq.mp named, small]

theorem sameIgnoringCase_of_lower {cs : List Char} (function : String.ofList (Text.asciiLower cs) = lower)
    (small : Text.asciiLower name.toList = lower.toList) : Text.sameIgnoringCase cs name.toList = true := by
  rw [Text.sameIgnoringCase, small, ← function, String.toList_ofList, beq_self_eq_true]

theorem named_of_functionOf (function : functionOf t = lower)
    (small : Text.asciiLower name.toList = lower.toList) : Text.sameIgnoringCase t.chars name.toList = true :=
  sameIgnoringCase_of_lower function small

end Functions

/-! ## Results without their errors -/

section Results

variable {ε : Type} {result : Except ε β}

theorem toOption_eq_some_iff {x : β} : result.toOption = some x ↔ result = .ok x := by
  cases result <;> simp [Except.toOption]

theorem toOption_eq_none_iff : result.toOption = none ↔ ∃ e, result = .error e := by
  cases result <;> simp [Except.toOption]

end Results

/-! ## Whole texts -/

theorem of_of_tokens {cs : List Char} (cut : Lexer.tokensStrict cs = .ok ts) (type : ValueType) (r : Reading β) :
    of type cs r =
      match (r ts).1 with
      | .ok x => .ok x
      | .error e => .error (.invalid type e) := by
  cases answer : (r ts).1 <;> simp [of, cut, answer]

theorem exists_of_eq_ok {type : ValueType} {cs : List Char} {r : Reading β} {x : β} (h : of type cs r = .ok x) :
    ∃ ts rest, Lexer.tokensStrict cs = .ok ts ∧ r ts = (.ok x, rest) := by
  cases cut : Lexer.tokensStrict cs with
  | error position => simp [of, cut] at h
  | ok ts =>
    rw [of_of_tokens cut] at h
    refine ⟨ts, (r ts).2, rfl, ?_⟩
    split at h
    · rename_i y answered
      cases h
      exact Prod.ext answered rfl
    · cases h

theorem whole_of_tokens {cs : List Char} (cut : Lexer.tokensStrict cs = .ok ts) (type : ValueType) (r : Reading β) :
    whole type cs r =
      match (continueWith (r ts) fun x => (do finish; pure x : Reading β)).1 with
      | .ok x => .ok x
      | .error e => .error (.invalid type e) := by
  unfold whole of
  rw [cut]
  rfl

/-- A reader of whole texts succeeds where its step takes all tokens. -/
theorem whole_eq_ok_iff {type : ValueType} {cs : List Char} {r : Reading β} {x : β} :
    whole type cs r = .ok x ↔ ∃ ts, Lexer.tokensStrict cs = .ok ts ∧ r ts = (.ok x, []) := by
  cases cut : Lexer.tokensStrict cs with
  | error position => simp [whole, of, cut]
  | ok ts =>
    rw [whole_of_tokens cut]
    simp only [Except.ok.injEq, exists_eq_left']
    cases r ts with
    | mk result rest =>
      cases result with
      | error e => simp
      | ok y =>
        cases rest with
        | nil =>
          change Except.ok y = Except.ok x ↔ _
          simp
        | cons t rest =>
          change Except.error _ = Except.ok x ↔ _
          simp

/-- Where its step fails, a reader of whole texts fails for the same reason. -/
theorem whole_of_error {type : ValueType} {cs : List Char} {r : Reading β} {e : Flaw}
    (cut : Lexer.tokensStrict cs = .ok ts) (failed : r ts = (.error e, rest)) :
    whole type cs r = .error (.invalid type e) := by
  rw [whole_of_tokens cut, failed, continueWith_error]

end Stylebook.Reading
