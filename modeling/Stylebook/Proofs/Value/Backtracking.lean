import Stylebook.Proofs.Value.Arguments
import Stylebook.Scalar.Rational

/-!
# Going back to where an attempt began

A reader of values tries what may follow, and takes it back if it fails halfway. Here its tokens are seen through a cursor:
`CursorAt tokens k ts` says that `ts` is what is left of them at the place `k`. What a single operation answers at a place,
and where it leaves the cursor, are the rules of `Operation.Acts`.

Operations follow each other in scripts. A script sees each answer, a failure too, before it goes on or fails itself, and
it may attempt another script, which may hold attempts of its own. That nothing is left of a failed attempt is shown of
the single attempt, which can be replaced by its own script or by nothing (`run_attempt_of_ok`, `run_attempt_of_error`),
and, by induction over the script, of a whole run: it leaves what the operations outside of failed attempts leave, one
behind the other (`leave_kept`).
-/

set_option autoImplicit false

namespace Stylebook.Reading

variable {α β γ δ : Type}

/-! ## The cursor -/

/-- What is left of the tokens where the cursor is at `k`. -/
structure CursorAt (tokens : List Token) (k : Nat) (ts : List Token) : Prop where
  within : k ≤ tokens.length
  left : ts = tokens.drop k

namespace CursorAt

variable {tokens ts rest : List Token} {t : Token} {i j k : Nat}

theorem length (here : CursorAt tokens k ts) : k + ts.length = tokens.length := by
  have within := here.within
  rw [here.left, List.length_drop]
  omega

/-- There is one cursor for what is left. -/
theorem unique (here : CursorAt tokens i ts) (there : CursorAt tokens j ts) : i = j := by
  have first := here.length
  have second := there.length
  omega

/-- A step that gives no tokens back moves the cursor forward, and not beyond the end. -/
theorem of_suffix (here : CursorAt tokens k ts) (behind : rest <:+ ts) : ∃ i, k ≤ i ∧ CursorAt tokens i rest := by
  have whole : rest <:+ tokens := behind.trans (here.left ▸ List.drop_suffix k tokens)
  have counted := here.length
  have less := behind.length_le
  refine ⟨tokens.length - rest.length, by omega, by omega, ?_⟩
  exact List.suffix_iff_eq_drop.mp whole

theorem start (tokens : List Token) : CursorAt tokens 0 tokens := ⟨Nat.zero_le _, rfl⟩

theorem getElem? (here : CursorAt tokens k ts) (n : Nat) : tokens[k + n]? = ts[n]? := by
  rw [here.left, List.getElem?_drop]

theorem head? (here : CursorAt tokens k ts) : tokens[k]? = ts.head? := by
  rw [List.head?_eq_getElem?]
  exact here.getElem? 0

theorem next (here : CursorAt tokens k (t :: rest)) : CursorAt tokens (k + 1) rest where
  within := by
    have counted := here.length
    rw [List.length_cons] at counted
    omega
  left := by rw [← List.tail_drop, ← here.left, List.tail_cons]

theorem eq_length_iff (here : CursorAt tokens k ts) : k = tokens.length ↔ ts = [] := by
  have counted := here.length
  rw [← List.length_eq_zero_iff]
  omega

/-- The next token is taken if it is of the kind that is expected. -/
theorem expect (here : CursorAt tokens k ts) (kind : TokenKind) :
    (∃ t rest, tokens[k]? = some t ∧ t.kind = kind ∧ Reading.expect kind ts = (.ok t, rest) ∧
      CursorAt tokens (k + 1) rest) ∨
    (∀ t ∈ tokens[k]?, t.kind ≠ kind) ∧
      Reading.expect kind ts = (.error (.expectedToken kind (tokens[k]?.map (·.text))), ts) := by
  rw [here.head?]
  cases ts with
  | nil => exact .inr ⟨by simp, rfl⟩
  | cons t rest =>
    by_cases same : t.kind = kind
    · exact .inl ⟨t, rest, rfl, same, expect_cons same rest, here.next⟩
    · exact .inr ⟨by simpa using same, expect_cons_of_ne same rest⟩

/-- A step for numbers takes the next token if it stands for one. -/
theorem item (here : CursorAt tokens k ts) (value? : Token → Option α) :
    (∃ t n rest, tokens[k]? = some t ∧ value? t = some n ∧ Reading.item value? ts = (.ok n, rest) ∧
      CursorAt tokens (k + 1) rest) ∨
    (∀ t ∈ tokens[k]?, value? t = none) ∧
      Reading.item value? ts = (.error (.expectedNumber (tokens[k]?.map (·.text))), ts) := by
  rw [here.head?]
  cases ts with
  | nil => exact .inr ⟨by simp, rfl⟩
  | cons t rest =>
    cases value : value? t with
    | some n => exact .inl ⟨t, n, rest, rfl, value, item_cons value rest, here.next⟩
    | none => exact .inr ⟨by simpa using value, by simp [Reading.item, value]⟩

end CursorAt

/-! ## Steps that give nothing back -/

theorem steady_looking (f : List Token → β) : Steady fun ts => (.ok (f ts), ts) := fun _ => List.suffix_rfl

theorem steady_numericParameters [Scalar α] (word : String) : Steady (numericParameters word : Reading (List α)) := by
  have items := (repeats_items (Token.number? (α := α))).steady
  refine Steady.bind (steady_eatKeyword word) fun named => Steady.bind (steady_looking _) fun kind? => ?_
  split
  · refine Steady.bind (steady_expect .parenOpen) fun _ => Steady.bind items fun values => ?_
    exact Steady.bind (steady_expect .parenClose) fun _ => steady_looking _
  · exact items

theorem Steady.attempt {r : Reading β} (steady : Steady r) : Steady (attempt r) := by
  intro ts
  have behind := steady ts
  cases tried : r ts with
  | mk result rest =>
    rw [tried] at behind
    cases result with
    | ok x => rwa [attempt_of_ok tried]
    | error e => rw [attempt_of_error tried]

/-! ## Operations -/

/-- What can be done with the tokens of a value, by the type of the answer. A failure is an answer like others: what comes
of it is for the script to decide. -/
inductive Operation (α : Type) : Type → Type where
  | peek : Operation α (Option Token)
  | peekKind : Operation α (Option TokenKind)
  | peekSecond : Operation α (Option TokenKind)
  | atEnd : Operation α Bool
  | advance : Operation α (Option Token)
  | eat (kind : TokenKind) : Operation α Bool
  | eatKeyword (word : String) : Operation α Bool
  | expect (kind : TokenKind) : Operation α (Except Flaw Token)
  | number : Operation α (Except Flaw α)
  | looseNumber : Operation α (Except Flaw α)
  | functionName : Operation α (Option Token)
  | numericParameters (word : String) : Operation α (Except Flaw (List α))
  | finish : Operation α (Except Flaw Unit)

/-- A step with its failure as an answer. -/
def caught (r : Reading β) : Reading (Except Flaw β) :=
  fun ts => (.ok (r ts).1, (r ts).2)

namespace Operation

/-- The step that an operation stands for. -/
def step [Scalar α] : Operation α γ → Reading γ
  | .peek => peek?
  | .peekKind => peekKind?
  | .peekSecond => peekSecond?
  | .atEnd => Reading.atEnd
  | .advance => advance?
  | .eat kind => Reading.eat kind
  | .eatKeyword word => Reading.eatKeyword word
  | .expect kind => caught (Reading.expect kind)
  | .number => caught Reading.number
  | .looseNumber => caught Reading.looseNumber
  | .functionName => functionName?
  | .numericParameters word => caught (Reading.numericParameters word)
  | .finish => caught Reading.finish

/-- Whether the answer says that what comes next is not what the operation is for. -/
def Refused : Operation α γ → γ → Prop
  | .advance, t? => t? = none
  | .eat _, taken => taken = false
  | .eatKeyword _, taken => taken = false
  | .expect _, answer => ∃ e, answer = .error e
  | .number, answer => ∃ e, answer = .error e
  | .looseNumber, answer => ∃ e, answer = .error e
  | .functionName, t? => t? = none
  | _, _ => False

/-- What an operation answers with the cursor at `i`, and where it leaves the cursor. -/
inductive Acts [Scalar α] (tokens : List Token) (i : Nat) : {γ : Type} → Operation α γ → γ → Nat → Prop
  | peek : Acts tokens i .peek tokens[i]? i
  | peekKind : Acts tokens i .peekKind (tokens[i]?.map (·.kind)) i
  | peekSecond : Acts tokens i .peekSecond (tokens[i + 1]?.map (·.kind)) i
  | atEnd {done : Bool} (ended : done = true ↔ i = tokens.length) : Acts tokens i .atEnd done i
  | advance {t : Token} (here : tokens[i]? = some t) : Acts tokens i .advance (some t) (i + 1)
  | advanceNone (here : tokens[i]? = none) : Acts tokens i .advance none i
  | eat {kind : TokenKind} {t : Token} (here : tokens[i]? = some t) (same : t.kind = kind) :
    Acts tokens i (.eat kind) true (i + 1)
  | eatNone {kind : TokenKind} (other : ∀ t ∈ tokens[i]?, t.kind ≠ kind) : Acts tokens i (.eat kind) false i
  | eatKeyword {word : String} {t : Token} (here : tokens[i]? = some t) (same : isKeyword word t = true) :
    Acts tokens i (.eatKeyword word) true (i + 1)
  | eatKeywordNone {word : String} (other : ∀ t ∈ tokens[i]?, isKeyword word t = false) :
    Acts tokens i (.eatKeyword word) false i
  | expect {kind : TokenKind} {t : Token} (here : tokens[i]? = some t) (same : t.kind = kind) :
    Acts tokens i (.expect kind) (.ok t) (i + 1)
  | expectNone {kind : TokenKind} (other : ∀ t ∈ tokens[i]?, t.kind ≠ kind) :
    Acts tokens i (.expect kind) (.error (.expectedToken kind (tokens[i]?.map (·.text)))) i
  | number {t : Token} {n : α} (here : tokens[i]? = some t) (value : t.number? = some n) :
    Acts tokens i .number (.ok n) (i + 1)
  | numberNone (other : ∀ t ∈ tokens[i]?, t.number? (α := α) = none) :
    Acts tokens i .number (.error (.expectedNumber (tokens[i]?.map (·.text)))) i
  | looseNumber {t : Token} {n : α} (here : tokens[i]? = some t) (value : t.looseNumber? = some n) :
    Acts tokens i .looseNumber (.ok n) (i + 1)
  | looseNumberNone (other : ∀ t ∈ tokens[i]?, t.looseNumber? (α := α) = none) :
    Acts tokens i .looseNumber (.error (.expectedNumber (tokens[i]?.map (·.text)))) i
  | functionName {t u : Token} (here : tokens[i]? = some t) (name : t.kind = .ident)
    (second : tokens[i + 1]? = some u) (paren : u.kind = .parenOpen) : Acts tokens i .functionName (some t) (i + 2)
  | functionNameNone
    (other : ∀ t ∈ tokens[i]?, ∀ u ∈ tokens[i + 1]?, ¬(t.kind = .ident ∧ u.kind = .parenOpen)) :
    Acts tokens i .functionName none i
  /-- Numbers may be taken before it fails. -/
  | numericParameters {word : String} {answer : Except Flaw (List α)} {j : Nat} (behind : i ≤ j) :
    Acts tokens i (.numericParameters word) answer j
  | finish (ended : i = tokens.length) : Acts tokens i .finish (.ok ()) i
  | finishNone {t : Token} (here : tokens[i]? = some t) : Acts tokens i .finish (.error (.leftOver (some t.text))) i

variable [Scalar α] {tokens ts rest : List Token} {i j : Nat}

/-- An operation that refuses what comes next leaves the cursor where it was. -/
theorem Acts.eq_of_refused {op : Operation α γ} {answer : γ} (acts : Acts tokens i op answer j)
    (refused : op.Refused answer) : j = i := by
  cases acts with
  | advance | eat | eatKeyword | functionName => cases refused
  | expect | number | looseNumber =>
    obtain ⟨e, failed⟩ := refused
    cases failed
  | numericParameters => exact refused.elim
  | _ => rfl

/-! ## The rules hold -/

/-- The operation does at `i` what the rules say, with `ts` left there. -/
def Obeys (tokens : List Token) (i : Nat) (ts : List Token) (op : Operation α γ) : Prop :=
  ∃ answer j rest, op.step ts = (.ok answer, rest) ∧ CursorAt tokens j rest ∧ Acts tokens i op answer j

section Rules

variable (here : CursorAt tokens i ts)
include here

theorem obeys_peekSecond : Obeys tokens i ts (.peekSecond : Operation α _) := by
  refine ⟨_, i, ts, rfl, here, ?_⟩
  have second : ts.tail.head? = tokens[i + 1]? := by
    rw [here.getElem? 1, List.head?_tail]
  rw [second]
  exact .peekSecond

theorem obeys_atEnd : Obeys tokens i ts (.atEnd : Operation α _) := by
  refine ⟨_, i, ts, rfl, here, .atEnd ?_⟩
  rw [here.eq_length_iff, List.isEmpty_iff]

theorem obeys_advance : Obeys tokens i ts (.advance : Operation α _) := by
  have next := here.head?
  cases ts with
  | nil => exact ⟨none, i, [], rfl, here, .advanceNone next⟩
  | cons t rest => exact ⟨some t, i + 1, rest, rfl, here.next, .advance next⟩

theorem obeys_eat (kind : TokenKind) : Obeys tokens i ts (.eat kind : Operation α _) := by
  have next := here.head?
  cases ts with
  | nil => exact ⟨false, i, [], rfl, here, .eatNone (by simp [next])⟩
  | cons t rest =>
    by_cases same : t.kind = kind
    · exact ⟨true, i + 1, rest, eat_cons same rest, here.next, .eat next same⟩
    · exact ⟨false, i, t :: rest, eat_cons_of_ne same rest, here, .eatNone (by simpa [next] using same)⟩

theorem obeys_eatKeyword (word : String) : Obeys tokens i ts (.eatKeyword word : Operation α _) := by
  have next := here.head?
  cases ts with
  | nil => exact ⟨false, i, [], rfl, here, .eatKeywordNone (by simp [next])⟩
  | cons t rest =>
    by_cases same : isKeyword word t = true
    · exact ⟨true, i + 1, rest, if_pos same, here.next, .eatKeyword next same⟩
    · exact ⟨false, i, t :: rest, if_neg same, here, .eatKeywordNone (by simpa [next] using same)⟩

theorem obeys_expect (kind : TokenKind) : Obeys tokens i ts (.expect kind : Operation α _) := by
  rcases here.expect kind with ⟨t, rest, next, same, taken, there⟩ | ⟨other, missed⟩
  · exact ⟨.ok t, i + 1, rest, by rw [step, caught, taken], there, .expect next same⟩
  · exact ⟨_, i, ts, by rw [step, caught, missed], here, .expectNone other⟩

theorem obeys_number : Obeys tokens i ts (.number : Operation α _) := by
  rcases here.item (Token.number? (α := α)) with ⟨t, n, rest, next, value, taken, there⟩ | ⟨other, missed⟩
  · exact ⟨.ok n, i + 1, rest, by rw [step, caught, Reading.number, taken], there, .number next value⟩
  · exact ⟨_, i, ts, by rw [step, caught, Reading.number, missed], here, .numberNone other⟩

theorem obeys_looseNumber : Obeys tokens i ts (.looseNumber : Operation α _) := by
  rcases here.item (Token.looseNumber? (α := α)) with ⟨t, n, rest, next, value, taken, there⟩ | ⟨other, missed⟩
  · exact ⟨.ok n, i + 1, rest, by rw [step, caught, Reading.looseNumber, taken], there, .looseNumber next value⟩
  · exact ⟨_, i, ts, by rw [step, caught, Reading.looseNumber, missed], here, .looseNumberNone other⟩

theorem obeys_functionName : Obeys tokens i ts (.functionName : Operation α _) := by
  have next := here.head?
  have second := here.getElem? 1
  match ts with
  | [] => exact ⟨none, i, [], rfl, here, .functionNameNone (by simp [next])⟩
  | [t] => exact ⟨none, i, [t], rfl, here, .functionNameNone (by simp [second])⟩
  | t :: u :: rest =>
    by_cases call : t.kind = .ident ∧ u.kind = .parenOpen
    · refine ⟨some t, i + 2, rest, ?_, here.next.next, .functionName next call.1 second call.2⟩
      exact if_pos call
    · refine ⟨none, i, t :: u :: rest, ?_, here, .functionNameNone ?_⟩
      · exact if_neg call
      · rw [next, second]
        rintro v ⟨⟩ w ⟨⟩
        exact call

theorem obeys_numericParameters (word : String) : Obeys tokens i ts (.numericParameters word : Operation α _) := by
  obtain ⟨j, behind, there⟩ := here.of_suffix (steady_numericParameters (α := α) word ts)
  exact ⟨_, j, _, rfl, there, .numericParameters behind⟩

theorem obeys_finish : Obeys tokens i ts (.finish : Operation α _) := by
  have next := here.head?
  cases ts with
  | nil => exact ⟨.ok (), i, [], rfl, here, .finish (here.eq_length_iff.mpr rfl)⟩
  | cons t rest => exact ⟨_, i, t :: rest, rfl, here, .finishNone next⟩

theorem obeys (op : Operation α γ) : Obeys tokens i ts op := by
  cases op with
  | peek => exact ⟨_, i, ts, rfl, here, here.head? ▸ .peek⟩
  | peekKind => exact ⟨_, i, ts, rfl, here, here.head? ▸ .peekKind⟩
  | peekSecond => exact obeys_peekSecond here
  | atEnd => exact obeys_atEnd here
  | advance => exact obeys_advance here
  | eat kind => exact obeys_eat here kind
  | eatKeyword word => exact obeys_eatKeyword here word
  | expect kind => exact obeys_expect here kind
  | number => exact obeys_number here
  | looseNumber => exact obeys_looseNumber here
  | functionName => exact obeys_functionName here
  | numericParameters word => exact obeys_numericParameters here word
  | finish => exact obeys_finish here

end Rules

theorem steady_step (op : Operation α γ) : Steady op.step := by
  intro ts
  obtain ⟨x, j, rest, taken, there, -⟩ := op.obeys (CursorAt.start ts)
  rw [taken, there.left]
  exact List.drop_suffix j ts

end Operation

/-! ## Scripts -/

/-- Operations in a row, each chosen by the answers before it, with attempts of other scripts between them. -/
inductive Script (α : Type) : Type → Type 1 where
  /-- Nothing is left to do but to give the result, or to fail. -/
  | done {β : Type} (result : Except Flaw β) : Script α β
  | call {β γ : Type} (op : Operation α γ) (next : γ → Script α β) : Script α β
  | attempt {β γ : Type} (inner : Script α γ) (next : Option γ → Script α β) : Script α β

namespace Script

variable [Scalar α]

def run : {β : Type} → Script α β → Reading β
  | _, .done result => lift result
  | _, .call op next => op.step >>= fun x => (next x).run
  | _, .attempt inner next => Reading.attempt inner.run >>= fun x? => (next x?).run

/-- One script, and another one behind it if it does not fail. -/
def bind : {β : Type} → Script α β → (β → Script α γ) → Script α γ
  | _, .done (.ok x), f => f x
  | _, .done (.error e), _ => .done (.error e)
  | _, .call op next, f => .call op fun x => (next x).bind f
  | _, .attempt inner next, f => .attempt inner fun x? => (next x?).bind f

/-- The run of a script from given tokens comes to a point, which may be inside of an attempt, where the second script is
still to be run and `rest` is what is left. -/
inductive Reaches : {β δ : Type} → Script α β → List Token → Script α δ → List Token → Prop
  | here {δ : Type} {q : Script α δ} {rest : List Token} : Reaches q rest q rest
  | called {β γ δ : Type} {op : Operation α γ} {next : γ → Script α β} {q : Script α δ} {x : γ}
      {ts us rest : List Token} : op.step ts = (.ok x, us) → Reaches (next x) us q rest →
      Reaches (.call op next) ts q rest
  | inside {β γ δ : Type} {inner : Script α γ} {next : Option γ → Script α β} {q : Script α δ} {ts rest : List Token} :
      Reaches inner ts q rest → Reaches (.attempt inner next) ts q rest
  | attempted {β γ δ : Type} {inner : Script α γ} {next : Option γ → Script α β} {q : Script α δ} {x? : Option γ}
      {ts us rest : List Token} : Reading.attempt inner.run ts = (.ok x?, us) → Reaches (next x?) us q rest →
      Reaches (.attempt inner next) ts q rest

/-- The operations of a run, without those in failed attempts. -/
def kept : {β : Type} → Script α β → List Token → List (Σ γ : Type, Operation α γ)
  | _, .done _, _ => []
  | _, .call op next, ts =>
    match op.step ts with
    | (.ok x, rest) => ⟨_, op⟩ :: (next x).kept rest
    | (.error _, _) => []
  | _, .attempt inner next, ts =>
    match inner.run ts with
    | (.ok x, rest) => inner.kept ts ++ (next (some x)).kept rest
    | (.error _, _) => (next none).kept ts

/-- What the operations leave, one behind the other. -/
def leave (ops : List (Σ γ : Type, Operation α γ)) (ts : List Token) : List Token :=
  ops.foldl (fun ts op => (op.2.step ts).2) ts

theorem steady_run (p : Script α β) : Steady p.run := by
  induction p with
  | done result => exact fun _ => List.suffix_rfl
  | call op next ih => exact op.steady_step.bind ih
  | attempt inner next ihInner ih => exact ihInner.attempt.bind ih

theorem run_bind (p : Script α β) (f : β → Script α γ) : (p.bind f).run = p.run >>= fun x => (f x).run := by
  funext ts
  -- The script inside of an attempt is the same on both sides, so nothing is needed of it.
  induction p generalizing ts with
  | done result => cases result <;> rfl
  | call op next ih =>
    show continueWith (op.step ts) _ = continueWith (continueWith (op.step ts) _) _
    cases op.step ts with
    | mk answer rest =>
      cases answer with
      | ok x => exact ih x f rest
      | error e => rfl
  | attempt inner next _ ih =>
    show continueWith (Reading.attempt inner.run ts) _ = continueWith (continueWith (Reading.attempt inner.run ts) _) _
    cases Reading.attempt inner.run ts with
    | mk answer rest =>
      cases answer with
      | ok x? => exact ih x? f rest
      | error e => rfl

/-! ## Attempts in scripts -/

section Attempts

variable {inner : Script α γ} {ts rest : List Token}

/-- A failed attempt is as if there had been none. -/
theorem run_attempt_of_error {e : Flaw} (failed : inner.run ts = (.error e, rest)) (next : Option γ → Script α β) :
    (attempt inner next).run ts = (next none).run ts :=
  bind_of_ok (attempt_of_error failed) _

/-- An attempt that does not fail is as if its script stood in its place. -/
theorem run_attempt_of_ok {x : γ} (read : inner.run ts = (.ok x, rest)) (next : Option γ → Script α β) :
    (attempt inner next).run ts = (inner.bind fun x => next (some x)).run ts := by
  rw [run_bind, bind_of_ok read]
  exact bind_of_ok (attempt_of_ok read) _

end Attempts

/-- What a run leaves is what its operations leave outside of failed attempts. -/
theorem leave_kept (p : Script α β) (ts : List Token) : leave (p.kept ts) ts = (p.run ts).2 := by
  induction p generalizing ts with
  | done result => rfl
  | call op next ih =>
    -- An operation always answers, so there is always a run behind it.
    obtain ⟨x, -, rest, taken, -⟩ := op.obeys (CursorAt.start ts)
    have onward : (call op next).run ts = (next x).run rest := bind_of_ok taken _
    rw [onward, kept, taken, ← ih x rest]
    simp only [leave, List.foldl_cons, taken]
  | attempt inner next ihInner ih =>
    cases tried : inner.run ts with
    | mk result rest =>
      cases result with
      | error e =>
        rw [run_attempt_of_error tried, kept, tried]
        exact ih none ts
      | ok x =>
        have before : leave (inner.kept ts) ts = rest := by rw [ihInner ts, tried]
        have onward : (attempt inner next).run ts = (next (some x)).run rest := bind_of_ok (attempt_of_ok tried) _
        rw [onward, kept, tried, ← ih (some x) rest, ← before]
        exact List.foldl_append

/-- At no point of a run are there other tokens left than the last of those it began with. -/
theorem Reaches.suffix {p : Script α β} {q : Script α δ} {ts rest : List Token} (point : p.Reaches ts q rest) :
    rest <:+ ts := by
  induction point with
  | here => exact List.suffix_rfl
  | @called _ _ _ op _ _ _ ts _ _ taken _ ih =>
    have before := op.steady_step ts
    rw [taken] at before
    exact ih.trans before
  | inside _ ih => exact ih
  | @attempted _ _ _ inner _ _ _ ts _ _ tried _ ih =>
    have before := inner.steady_run.attempt ts
    rw [tried] at before
    exact ih.trans before

end Script

/-! ## Backtracking -/

/-- The cursor over the tokens stays within them whatever is done with it, and is put back where something fails. -/
structure Backtracks (α : Type) [Scalar α] (tokens : List Token) : Prop where
  /-- What is left says where the cursor is. -/
  unique : ∀ (i j : Nat) (ts : List Token), CursorAt tokens i ts → CursorAt tokens j ts → i = j
  /-- At each point of a run, also inside of attempts, the cursor is not before where the run began, and not beyond the
  end. -/
  stays : ∀ {β δ : Type} (p : Script α β) (q : Script α δ) (k : Nat) (ts rest : List Token), CursorAt tokens k ts →
    p.Reaches ts q rest → ∃ i, k ≤ i ∧ CursorAt tokens i rest
  /-- So it is where the run ends, whether it fails or not. -/
  ends : ∀ {β : Type} (p : Script α β) (k : Nat) (ts : List Token), CursorAt tokens k ts →
    ∃ j, k ≤ j ∧ CursorAt tokens j (p.run ts).2
  obeys : ∀ {γ : Type} (op : Operation α γ) (i : Nat) (ts : List Token), CursorAt tokens i ts → op.Obeys tokens i ts
  refuses : ∀ {γ : Type} (op : Operation α γ) (answer : γ) (i : Nat) (ts rest : List Token), CursorAt tokens i ts →
    op.step ts = (.ok answer, rest) → op.Refused answer → CursorAt tokens i rest
  /-- A failed attempt puts the cursor back, and the run goes on as if there had been none. -/
  fails : ∀ {β γ : Type} (inner : Script α γ) (next : Option γ → Script α β) (e : Flaw) (ts stop : List Token),
    inner.run ts = (.error e, stop) →
    attempt inner.run ts = (.ok none, ts) ∧ (Script.attempt inner next).run ts = (next none).run ts
  /-- An attempt that does not fail leaves what its script leaves, and the run goes on as if the script stood there. -/
  succeeds : ∀ {β γ : Type} (inner : Script α γ) (next : Option γ → Script α β) (x : γ) (ts rest : List Token),
    inner.run ts = (.ok x, rest) →
    attempt inner.run ts = (.ok (some x), rest) ∧
      (Script.attempt inner next).run ts = (inner.bind fun x => next (some x)).run ts
  /-- At any depth of attempts, only what the operations outside of failed ones have taken is gone. -/
  leaves : ∀ {β : Type} (p : Script α β) (ts : List Token), (p.run ts).2 = Script.leave (p.kept ts) ts
  finishes : ∀ (i : Nat) (ts : List Token), CursorAt tokens i ts → ((finish ts).1 = .ok () ↔ i = tokens.length)

theorem Operation.refuses [Scalar α] {tokens ts rest : List Token} {i : Nat} {op : Operation α γ} {answer : γ}
    (here : CursorAt tokens i ts) (taken : op.step ts = (.ok answer, rest)) (refused : op.Refused answer) :
    CursorAt tokens i rest := by
  obtain ⟨answer', j, rest', taken', there, acts⟩ := op.obeys here
  rw [taken'] at taken
  cases taken
  rwa [acts.eq_of_refused refused] at there

theorem finish_iff {tokens ts : List Token} {i : Nat} (here : CursorAt tokens i ts) :
    (finish ts).1 = .ok () ↔ i = tokens.length := by
  rw [here.eq_length_iff]
  cases ts <;> simp [finish]

/-- **The cursor goes back to where an attempt began.** Over any tokens and in any script, with attempts in attempts to
any depth, the cursor stays between where the script began and the end of the tokens. What each operation answers is
decided by the tokens at the cursor; one that refuses them leaves the cursor where it was. An attempt that fails, wherever
its script fails, is as if it had not been made; one that does not fail is as if its script stood there alone. All is
taken exactly where the cursor is at the end. -/
theorem backtracks (α : Type) [Scalar α] (tokens : List Token) : Backtracks α tokens where
  unique _ _ _ here there := here.unique there
  stays _ _ _ _ _ here point := here.of_suffix point.suffix
  ends p _ ts here := here.of_suffix (p.steady_run ts)
  obeys op _ _ here := op.obeys here
  refuses _ _ _ _ _ here taken refused := Operation.refuses here taken refused
  fails _ next _ _ _ failed := ⟨attempt_of_error failed, Script.run_attempt_of_error failed next⟩
  succeeds _ next _ _ _ read := ⟨attempt_of_ok read, Script.run_attempt_of_ok read next⟩
  leaves p ts := (p.leave_kept ts).symm
  finishes _ _ here := finish_iff here

/-- A call is attempted, and its numbers in an attempt of their own. -/
def nestedAttempt : Script Rat (Option Token) :=
  .attempt
    (.call .functionName fun _ => .attempt (.call (.numericParameters "f") .done) fun _ => .call (.expect .comma) .done)
    fun _ => .call .peek fun t? => .done (.ok t?)

/-- The numbers fail behind the first of them and the call fails without them, each is taken back, and the cursor is at
the start again. -/
theorem backtracks_nested :
    let tokens := Lexer.tokens "f(1 x".toList
    (∃ i, 2 ≤ i ∧ CursorAt tokens i [⟨.ident, ['x'], 4, false⟩]) ∧
    attempt (Script.call (.numericParameters "f") .done : Script Rat (List Rat)).run (tokens.drop 2) =
      (.ok none, tokens.drop 2) ∧
    nestedAttempt.run tokens = (.ok tokens.head?, tokens) ∧ (finish tokens).1 ≠ .ok () := by
  intro tokens
  have cursor := backtracks Rat tokens
  have numbers : (Script.call (.numericParameters "f") .done : Script Rat (List Rat)).run (tokens.drop 2) =
      (.error (.expectedNumber (some "x")), [⟨.ident, ['x'], 4, false⟩]) := by decide +kernel
  have start : CursorAt tokens 2 (tokens.drop 2) := ⟨by decide +kernel, rfl⟩
  obtain ⟨i, further, stopped⟩ := cursor.ends _ 2 _ start
  rw [numbers] at stopped
  have rewound := (cursor.fails _ (fun _ => .call (.expect .comma) .done) _ _ _ numbers).1
  have call : (Script.call .functionName fun _ => .attempt (.call (.numericParameters "f") .done) fun _ =>
      .call (.expect .comma) .done : Script Rat Token).run tokens =
      (.error (.expectedToken .comma (some "1")), tokens.drop 2) := by decide +kernel
  have begun := (cursor.fails _ (fun _ => .call .peek fun t? => .done (.ok t?)) _ _ _ call).2
  have left := (cursor.finishes 0 tokens (.start tokens)).not.mpr (by decide +kernel)
  exact ⟨⟨i, further, stopped⟩, rewound, begun, left⟩

end Stylebook.Reading
