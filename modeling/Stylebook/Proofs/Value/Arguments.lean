import Stylebook.Proofs.Token.Loops
import Stylebook.Proofs.Value.Steps
import Stylebook.Value.Color
import Stylebook.Value.Transform

/-!
# The loops that take arguments

Numbers in parentheses are taken by three loops: `items` for the members of a figure, `channelList` for the channels of
a colour and `takeArguments` for the arguments of a transform. They differ in what stands between two numbers and in what
they do where the tokens end before the parenthesis is closed. Here the turn of each is written down, and each reader is
shown to do what its turns say.

Other than a reader of sheets, a step says where it stopped even if it fails. So there is one more thing to show of it:
that this place is among the tokens it was given (`Reading.Steady`).
-/

set_option autoImplicit false

namespace Stylebook

variable {ε σ α β : Type}

/-- A loop that fails somewhere among its tokens does so if each of its turns does. -/
theorem Loops.stops_within {turn : σ → List Token → Turn (ε × List Token) σ} {n : Nat} {s : σ} {ts stop : List Token}
    {e : ε} {answer : Except (ε × List Token) (σ × List Token)} (moves : ∀ s ts, (turn s ts).Moves ts)
    (stops : ∀ s ts e stop, turn s ts = .failed (e, stop) → stop <:+ ts) (run : Loops turn n s ts answer)
    (failed : answer = .error (e, stop)) : stop <:+ ts := by
  induction run with
  | ended => cases failed
  | broken => cases failed
  | @failed s ts e' next =>
    cases failed
    exact stops s ts e stop next
  | @onward s s' ts rest n answer next run ih =>
    exact (ih failed).trans (moves_onward moves next).1

namespace Reading

/-! ## Steps that take tokens -/

/-- The answer of a step, with the place where it stopped on either side. -/
def settled : Except Flaw β × List Token → Except (Flaw × List Token) (β × List Token)
  | (.ok x, rest) => .ok (x, rest)
  | (.error e, rest) => .error (e, rest)

theorem settled_eq_ok {outcome : Except Flaw β × List Token} {x : β} {rest : List Token}
    (h : settled outcome = .ok (x, rest)) : outcome = (.ok x, rest) := by
  obtain ⟨result, ts⟩ := outcome
  cases result with
  | ok y => cases h; rfl
  | error e => cases h

theorem settled_eq_error {outcome : Except Flaw β × List Token} {e : Flaw} {stop : List Token}
    (h : settled outcome = .error (e, stop)) : outcome = (.error e, stop) := by
  obtain ⟨result, ts⟩ := outcome
  cases result with
  | ok y => cases h
  | error e => cases h; rfl

/-- A step that gives no tokens back, whether it fails or not. -/
def Steady (r : Reading β) : Prop :=
  ∀ ts, (r ts).2 <:+ ts

/-- A steady step that takes a token if it does not fail. -/
structure Takes (r : Reading β) : Prop where
  steady : Steady r
  takes : ∀ ts x rest, r ts = (.ok x, rest) → rest.length < ts.length

theorem steady_eat (kind : TokenKind) : Steady (eat kind) := by
  intro ts
  cases ts with
  | nil => exact List.suffix_rfl
  | cons t ts =>
    by_cases here : t.kind = kind
    · rw [eat_cons here]
      exact List.suffix_cons t ts
    · rw [eat_cons_of_ne here]

theorem steady_expect (kind : TokenKind) : Steady (expect kind) := by
  intro ts
  cases ts with
  | nil => exact List.suffix_rfl
  | cons t ts =>
    by_cases here : t.kind = kind
    · rw [expect_cons here]
      exact List.suffix_cons t ts
    · rw [expect_cons_of_ne here]

theorem steady_eatKeyword (word : String) : Steady (eatKeyword word) := by
  intro ts
  cases ts with
  | nil => exact List.suffix_rfl
  | cons t ts =>
    rw [eatKeyword]
    split
    · exact List.suffix_cons t ts
    · exact List.suffix_rfl

theorem takes_item (value? : Token → Option α) : Takes (item value?) where
  steady ts := by
    cases outcome : item value? ts with
    | mk result rest =>
      cases result with
      | ok x =>
        obtain ⟨t, rfl, -⟩ := item_eq_ok outcome
        exact List.suffix_cons t rest
      | error e =>
        obtain ⟨rfl, -⟩ := item_eq_error outcome
        exact List.suffix_rfl
  takes ts x rest h := by
    obtain ⟨t, rfl, -⟩ := item_eq_ok h
    exact Nat.lt_succ_self _

theorem Steady.bind {r : Reading β} {f : β → Reading α} (steady : Steady r) (further : ∀ x, Steady (f x)) :
    Steady (r >>= f) := by
  intro ts
  have before := steady ts
  rw [bind_eq]
  cases outcome : r ts with
  | mk result rest =>
    rw [outcome] at before
    cases result with
    | ok x => exact (further x rest).trans before
    | error e => exact before

/-- A step that takes a token does so behind any other that gives none back. -/
theorem Takes.behind {r : Reading β} {s : Reading α} (steady : Steady r) (takes : Takes s) :
    Takes (r >>= fun _ => s) where
  steady := steady.bind fun _ => takes.steady
  takes ts x rest h := by
    obtain ⟨y, ts', first, second⟩ := bind_eq_ok h
    have before := (steady ts).length_le
    rw [first] at before
    exact (takes.takes ts' x rest second).trans_le before

/-! ## Turns -/

/-- A turn that takes one more number. -/
def taking (next : Reading α) (values : List α) (ts : List Token) : Turn (Flaw × List Token) (List α) :=
  .after (settled (next ts)) fun x => values ++ [x]

/-- A number, behind a comma if others were taken and there is one. -/
def nextItem (value? : Token → Option α) (first : Bool) : Reading α :=
  if first then item value? else eat .comma >>= fun _ => item value?

/-- The turn of a loop that goes up to a closing parenthesis or the end. -/
def itemsTurn (value? : Token → Option α) (values : List α) : List Token → Turn (Flaw × List Token) (List α)
  | [] => .ended values []
  | t :: rest =>
    if t.kind = .parenClose then .ended values (t :: rest)
    else taking (nextItem value? values.isEmpty) values (t :: rest)

/-- The turn of a loop that needs a closing parenthesis, and takes it. -/
def callTurn (next : Bool → Reading α) (values : List α) : List Token → Turn (Flaw × List Token) (List α)
  | [] => taking (next values.isEmpty) values []
  | t :: rest =>
    if t.kind = .parenClose then .ended values rest else taking (next values.isEmpty) values (t :: rest)

theorem takes_nextItem (value? : Token → Option α) (first : Bool) : Takes (nextItem value? first) := by
  cases first with
  | true => exact takes_item value?
  | false => exact Takes.behind (steady_eat .comma) (takes_item value?)

/-! ## Turns move -/

section Turns

variable {next : Reading α} (takes : Takes next) (values : List α) (ts : List Token)
include takes

theorem moves_taking : (taking next values ts).Moves ts := by
  have taken : Taking fun ts => settled (next ts) := by
    intro ts x rest h
    have found := settled_eq_ok h
    have behind := takes.steady ts
    rw [found] at behind
    exact ⟨behind, takes.takes ts x rest found⟩
  exact Turn.moves_after taken _ List.suffix_rfl

theorem stops_taking {e : Flaw} {stop : List Token} (h : taking next values ts = .failed (e, stop)) : stop <:+ ts := by
  cases outcome : settled (next ts) with
  | ok p =>
    rw [taking, outcome] at h
    cases h
  | error p =>
    rw [taking, outcome] at h
    cases h
    have behind := takes.steady ts
    rwa [settled_eq_error outcome] at behind

end Turns

theorem moves_itemsTurn (value? : Token → Option α) (values : List α) (ts : List Token) :
    (itemsTurn value? values ts).Moves ts := by
  cases ts with
  | nil => exact List.suffix_rfl
  | cons t rest =>
    rw [itemsTurn]
    split
    · exact List.suffix_rfl
    · exact moves_taking (takes_nextItem value? values.isEmpty) values (t :: rest)

theorem stops_itemsTurn (value? : Token → Option α) (values : List α) (ts : List Token) (e : Flaw) (stop : List Token)
    (h : itemsTurn value? values ts = .failed (e, stop)) : stop <:+ ts := by
  cases ts with
  | nil => cases h
  | cons t rest =>
    rw [itemsTurn] at h
    split at h
    · cases h
    · exact stops_taking (takes_nextItem value? values.isEmpty) values (t :: rest) h

section Call

variable {next : Bool → Reading α} (takes : ∀ first, Takes (next first)) (values : List α) (ts : List Token)
include takes

theorem moves_callTurn : (callTurn next values ts).Moves ts := by
  cases ts with
  | nil => exact moves_taking (takes values.isEmpty) values []
  | cons t rest =>
    rw [callTurn]
    split
    · exact List.suffix_cons t rest
    · exact moves_taking (takes values.isEmpty) values (t :: rest)

theorem stops_callTurn (e : Flaw) (stop : List Token) (h : callTurn next values ts = .failed (e, stop)) :
    stop <:+ ts := by
  cases ts with
  | nil => exact stops_taking (takes values.isEmpty) values [] h
  | cons t rest =>
    rw [callTurn] at h
    split at h
    · cases h
    · exact stops_taking (takes values.isEmpty) values (t :: rest) h

end Call

/-! ## Steps that are loops -/

/-- The step `r` is the loop of `turn`, and `front` tokens were taken in front of it: no part of it gives tokens back,
not even where it fails, each turn that is not the last takes one, and there are not more turns than tokens. -/
structure Repeats (front : Nat) (turn : List α → List Token → Turn (Flaw × List Token) (List α))
    (r : Reading (List α)) : Prop where
  moves : ∀ values ts, (turn values ts).Moves ts
  stops : ∀ values ts e stop, turn values ts = .failed (e, stop) → stop <:+ ts
  loops : ∀ ts, ∃ n ≤ front + ts.length, Loops turn n [] ts (settled (r ts))
  steady : Steady r

theorem Repeats.of_turn {front : Nat} {turn : List α → List Token → Turn (Flaw × List Token) (List α)}
    {r : Reading (List α)} (further : List α → List Token → Except (Flaw × List Token) (List α × List Token))
    (reads : ∀ ts, settled (r ts) = further [] ts) (moves : ∀ values ts, (turn values ts).Moves ts)
    (stops : ∀ values ts e stop, turn values ts = .failed (e, stop) → stop <:+ ts)
    (unfolds : ∀ values ts, further values ts = (turn values ts).answer further)
    (room : 0 < front ∨ ∀ values, ∃ values' rest, turn values [] = .ended values' rest) : Repeats front turn r where
  moves := moves
  stops := stops
  loops ts := by
    obtain ⟨n, run⟩ := exists_loops moves unfolds [] ts
    refine ⟨n, ?_, reads ts ▸ run⟩
    rcases room with taken | done
    · have counted := run.count_le moves
      omega
    · have counted := run.count_le_length moves done
      omega
  steady ts := by
    obtain ⟨n, run⟩ := exists_loops moves unfolds [] ts
    cases outcome : r ts with
    | mk result rest =>
      have answer := reads ts
      rw [outcome] at answer
      cases result with
      | ok values => exact run.suffix moves answer.symm
      | error e => exact run.stops_within moves stops answer.symm

/-! ## The three loops -/

/-- What a loop answers behind the numbers that were taken before it. -/
def gathered (values : List α) (outcome : Except Flaw (List α) × List Token) :
    Except (Flaw × List Token) (List α × List Token) :=
  (settled outcome).map fun (further, rest) => (values ++ further, rest)

theorem gathered_nil (outcome : Except Flaw (List α) × List Token) : gathered [] outcome = settled outcome := by
  obtain ⟨result, rest⟩ := outcome
  cases result <;> rfl

theorem gathered_consTo (values : List α) (x : α) (outcome : Except Flaw (List α) × List Token) :
    gathered values (consTo x outcome) = gathered (values ++ [x]) outcome := by
  obtain ⟨result, rest⟩ := outcome
  cases result with
  | ok further => simp [gathered, settled, consTo, Except.map]
  | error e => rfl

/-- A loop that takes one more number goes on with it. -/
theorem gathered_continueWith (values : List α) (outcome : Except Flaw α × List Token) (others : Bool → Reading (List α)) :
    gathered values (continueWith outcome fun x rest => consTo x (others false rest)) =
      (Turn.after (settled outcome) fun x => values ++ [x]).answer
        fun values ts => gathered values (others values.isEmpty ts) := by
  obtain ⟨result, rest⟩ := outcome
  cases result with
  | ok x =>
    have later : (values ++ [x]).isEmpty = false := by simp
    show gathered values (consTo x (others false rest)) = gathered (values ++ [x]) (others (values ++ [x]).isEmpty rest)
    rw [later, gathered_consTo]
  | error e => rfl

theorem nextItem_of_comma (value? : Token → Option α) {m : Token} (comma : m.kind = .comma) (rest : List Token) :
    nextItem value? false (m :: rest) = item value? rest :=
  bind_of_ok (eat_cons comma rest) fun _ => item value?

theorem nextItem_of_ne (value? : Token → Option α) (first : Bool) {t : Token} (other : t.kind ≠ .comma)
    (rest : List Token) : nextItem value? first (t :: rest) = item value? (t :: rest) := by
  cases first with
  | true => rfl
  | false => exact bind_of_ok (eat_cons_of_ne other rest) fun _ => item value?

theorem items_of_item (value? : Token → Option α) {first : Bool} {t : Token} (more : t.kind ≠ .parenClose)
    (here : ¬(first = false ∧ t.kind = .comma)) (rest : List Token) : items value? first (t :: rest) =
      continueWith (item value? (t :: rest)) fun x rest => consTo x (items value? false rest) := by
  rw [items.eq_def]
  cases value : value? t <;> simp only [more, here, if_false, item, value] <;> rfl

theorem items_of_comma (value? : Token → Option α) {m : Token} (comma : m.kind = .comma) (rest : List Token) :
    items value? false (m :: rest) =
      continueWith (item value? rest) fun x rest => consTo x (items value? false rest) := by
  rw [items.eq_def]
  cases rest with
  | nil => simp only [comma, reduceCtorEq, if_false, and_self, if_true]; rfl
  | cons u rest =>
    cases value : value? u <;> simp only [comma, reduceCtorEq, if_false, and_self, if_true, item, value] <;> rfl

theorem items_more (value? : Token → Option α) (first : Bool) {t : Token} (more : t.kind ≠ .parenClose)
    (rest : List Token) : items value? first (t :: rest) =
      continueWith (nextItem value? first (t :: rest)) fun x rest => consTo x (items value? false rest) := by
  by_cases comma : t.kind = .comma
  · cases first with
    | true => exact items_of_item value? more (by simp) rest
    | false => rw [items_of_comma value? comma, nextItem_of_comma value? comma]
  · rw [items_of_item value? more (fun h => comma h.2), nextItem_of_ne value? first comma]

/-- The loop over the members of a figure. -/
theorem repeats_items (value? : Token → Option α) : Repeats 0 (itemsTurn value?) (items value? true) := by
  apply Repeats.of_turn fun values ts => gathered values (items value? values.isEmpty ts)
  · exact fun ts => (gathered_nil _).symm
  · exact moves_itemsTurn value?
  · exact stops_itemsTurn value?
  · intro values ts
    cases ts with
    | nil => simp [items, itemsTurn, gathered, settled, Turn.answer, Except.map]
    | cons t rest =>
      by_cases close : t.kind = .parenClose
      · simp [items.eq_def, itemsTurn, close, gathered, settled, Turn.answer, Except.map]
      · rw [items_more value? values.isEmpty close, itemsTurn, if_neg close]
        exact gathered_continueWith values _ (items value?)
  · exact .inr fun values => ⟨values, [], rfl⟩

end Reading

/-! ## Channels of a colour -/

namespace Color

open Reading

variable [Scalar α]

/-- A number, behind a comma if it is not the first. -/
def nextChannel (first : Bool) : Reading α :=
  if first then number else expect .comma >>= fun _ => number

theorem takes_nextChannel (first : Bool) : Takes (nextChannel first : Reading α) := by
  cases first with
  | true => exact takes_item Token.number?
  | false => exact Takes.behind (steady_expect .comma) (takes_item Token.number?)

theorem channelList_nil (first : Bool) : (channelList first [] : Except Flaw (List α) × List Token) =
    continueWith (nextChannel first []) fun x rest => consTo x (channelList false rest) := by
  rw [channelList]
  cases first <;> rfl

theorem channelList_more (first : Bool) {t : Token} (more : t.kind ≠ .parenClose) (rest : List Token) :
    (channelList first (t :: rest) : Except Flaw (List α) × List Token) =
      continueWith (nextChannel first (t :: rest)) fun x rest => consTo x (channelList false rest) := by
  rw [channelList.eq_def]
  cases first with
  | true =>
    have direct : (nextChannel true : Reading α) (t :: rest) = item Token.number? (t :: rest) := rfl
    rw [direct]
    cases value : t.number? (α := α) <;> simp only [more, if_false, if_true, item, value] <;> rfl
  | false =>
    by_cases comma : t.kind = .comma
    · have behind : (nextChannel false : Reading α) (t :: rest) = item Token.number? rest :=
        bind_of_ok (expect_cons comma rest) fun _ => number
      rw [behind]
      cases rest with
      | nil => simp only [comma, reduceCtorEq, Bool.false_eq_true, if_false, if_true]; rfl
      | cons u rest =>
        cases value : u.number? (α := α) <;>
          simp only [comma, reduceCtorEq, Bool.false_eq_true, if_false, if_true, item, value] <;> rfl
    · have missing : (nextChannel false : Reading α) (t :: rest) =
          (.error (.expectedToken .comma (some t.text)), t :: rest) :=
        bind_of_error (expect_cons_of_ne comma rest) fun _ => number
      rw [missing]
      simp only [more, comma, Bool.false_eq_true, if_false]
      rfl

/-- The loop over the channels of a colour, behind the parenthesis that opens the call. -/
theorem repeats_channelList : Repeats 1 (callTurn nextChannel) (channelList true : Reading (List α)) := by
  apply Repeats.of_turn fun values ts => gathered values (channelList values.isEmpty ts)
  · exact fun ts => (gathered_nil _).symm
  · exact moves_callTurn takes_nextChannel
  · exact stops_callTurn takes_nextChannel
  · intro values ts
    cases ts with
    | nil =>
      rw [channelList_nil]
      exact gathered_continueWith values _ channelList
    | cons t rest =>
      by_cases close : t.kind = .parenClose
      · simp [channelList.eq_def, callTurn, close, gathered, settled, Turn.answer, Except.map]
      · rw [channelList_more values.isEmpty close, callTurn, if_neg close]
        exact gathered_continueWith values _ channelList
  · exact .inl Nat.one_pos

end Color

/-! ## Arguments of a transform -/

namespace Transform

open Reading

/-- Takes the parenthesis at which the numbers end, which must be there. -/
def closed {values : Type} : values × List Token → Except (Flaw × List Token) (values × List Token)
  | (_, []) => .error (.expectedNumber none, [])
  | (xs, _ :: rest) => .ok (xs, rest)

variable [Scalar α]

theorem settled_takeArguments (ts : List Token) :
    settled (takeArguments ts) = (gathered ([] : List α) (items Token.looseNumber? true ts)).bind closed := by
  rw [gathered_nil, takeArguments]
  cases items (α := α) Token.looseNumber? true ts with
  | mk result rest =>
    cases result with
    | error e => rfl
    | ok values => cases rest <;> rfl

/-- The loop over the arguments of a transform, behind the parenthesis that opens the call. -/
theorem repeats_takeArguments :
    Repeats 1 (callTurn (nextItem Token.looseNumber?)) (takeArguments : Reading (List α)) := by
  have takes := takes_nextItem (α := α) Token.looseNumber?
  apply Repeats.of_turn fun values ts => (gathered values (items Token.looseNumber? values.isEmpty ts)).bind closed
  · exact settled_takeArguments
  · exact moves_callTurn takes
  · exact stops_callTurn takes
  · intro values ts
    cases ts with
    | nil =>
      have missing : nextItem (α := α) Token.looseNumber? values.isEmpty [] = (.error (.expectedNumber none), []) := by
        cases values <;> rfl
      rw [callTurn, taking, missing, items]
      rfl
    | cons t rest =>
      by_cases close : t.kind = .parenClose
      · simp [items.eq_def, callTurn, close, gathered, settled, Turn.answer, Except.map, Except.bind, closed]
      · rw [items_more Token.looseNumber? values.isEmpty close, callTurn, if_neg close, taking,
          gathered_continueWith values _ (items Token.looseNumber?)]
        cases settled (nextItem (α := α) Token.looseNumber? values.isEmpty (t :: rest)) <;> rfl
  · exact .inl Nat.one_pos

end Transform

end Stylebook
