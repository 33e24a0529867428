import Mathlib.Data.List.Infix
import Stylebook.Token.Basic

/-!
# Loops over tokens

Most readers are loops, although they are written as recursions: a turn looks at the tokens that are left and at what was
gathered so far, and then the loop is over, or the turn leaves it, fails, or goes on to another turn (`Turn`). `Loops` is
a whole run of such turns, and it counts them.

That a run ends cannot be seen from how it is written down, since a turn takes its tokens by way of other readers. It is
a property of the single turn: what it leaves is the end of what it was given, and a turn that goes on has taken a token
(`Turn.Moves`). From this alone follow the run itself for any reader that does what its turns say (`exists_loops`), the
bound on its length (`Loops.count_le`) and where it stops (`Loops.suffix`).
-/

set_option autoImplicit false

namespace Stylebook

variable {ε σ β γ : Type}

/-- The reader gives no tokens back, and takes at least one. -/
def Taking (read : List Token → Except ε (β × List Token)) : Prop :=
  ∀ ts x rest, read ts = .ok (x, rest) → rest <:+ ts ∧ rest.length < ts.length

theorem Taking.gather {read : List Token → Except ε (β × List Token)} (takes : Taking read) (f : β → γ) :
    Taking fun ts => (read ts).bind fun (x, rest) => .ok (f x, rest) := by
  intro ts y rest h
  dsimp only at h
  cases found : read ts with
  | error e =>
    rw [found] at h
    cases h
  | ok p =>
    rw [found] at h
    cases h
    exact takes ts p.1 p.2 found

/-! ## Turns -/

/-- What a turn of a loop comes to. -/
inductive Turn (ε σ : Type) where
  /-- There is nothing to do: the loop ends before the turn. -/
  | ended (gathered : σ) (rest : List Token)
  /-- The turn ends the loop. -/
  | broken (gathered : σ) (rest : List Token)
  | failed (e : ε)
  /-- There is another turn. -/
  | onward (gathered : σ) (rest : List Token)

namespace Turn

/-- A turn that goes on behind what a reader takes. -/
def after (step : Except ε (β × List Token)) (gather : β → σ) : Turn ε σ :=
  match step with
  | .error e => .failed e
  | .ok (x, rest) => .onward (gather x) rest

/-- The answer of a loop whose next turn is the given one, if `read` is the answer from there on. -/
def answer (read : σ → List Token → Except ε (σ × List Token)) : Turn ε σ → Except ε (σ × List Token)
  | ended s rest => .ok (s, rest)
  | broken s rest => .ok (s, rest)
  | failed e => .error e
  | onward s rest => read s rest

/-- A turn over the tokens `ts` gives none back, and takes one if there is another turn. -/
def Moves (ts : List Token) : Turn ε σ → Prop
  | ended _ rest => rest <:+ ts
  | broken _ rest => rest <:+ ts
  | failed _ => True
  | onward _ rest => rest <:+ ts ∧ rest.length < ts.length

@[simp] theorem answer_after (read : σ → List Token → Except ε (σ × List Token)) (step : Except ε (β × List Token))
    (gather : β → σ) : (after step gather).answer read = step.bind fun (x, rest) => read (gather x) rest := by
  cases step <;> rfl

theorem moves_after {read : List Token → Except ε (β × List Token)} (takes : Taking read) (gather : β → σ)
    {us ts : List Token} (within : us <:+ ts) : (after (read us) gather).Moves ts := by
  cases found : read us with
  | error e => trivial
  | ok p =>
    obtain ⟨behind, less⟩ := takes us p.1 p.2 found
    exact ⟨behind.trans within, less.trans_le within.length_le⟩

end Turn

/-! ## Runs -/

section Runs

variable {turn : σ → List Token → Turn ε σ}

/-- Turn after turn until the loop ends or fails, with the number of turns. -/
inductive Loops (turn : σ → List Token → Turn ε σ) : Nat → σ → List Token → Except ε (σ × List Token) → Prop
  | ended {s s' : σ} {ts rest : List Token} : turn s ts = .ended s' rest → Loops turn 0 s ts (.ok (s', rest))
  | broken {s s' : σ} {ts rest : List Token} : turn s ts = .broken s' rest → Loops turn 1 s ts (.ok (s', rest))
  | failed {s : σ} {ts : List Token} {e : ε} : turn s ts = .failed e → Loops turn 1 s ts (.error e)
  | onward {s s' : σ} {ts rest : List Token} {n : Nat} {answer : Except ε (σ × List Token)} :
      turn s ts = .onward s' rest → Loops turn n s' rest answer → Loops turn (n + 1) s ts answer

variable (moves : ∀ s ts, (turn s ts).Moves ts)
include moves

theorem moves_onward {s s' : σ} {ts rest : List Token} (next : turn s ts = .onward s' rest) :
    rest <:+ ts ∧ rest.length < ts.length := by
  have moved := moves s ts
  rwa [next] at moved

/-- A reader that answers what its next turn says runs through the loop to its end. -/
theorem exists_loops {read : σ → List Token → Except ε (σ × List Token)}
    (unfolds : ∀ s ts, read s ts = (turn s ts).answer read) (s : σ) (ts : List Token) :
    ∃ n, Loops turn n s ts (read s ts) := by
  induction length : ts.length using Nat.strongRecOn generalizing s ts with
  | ind k ih =>
    rw [unfolds]
    cases next : turn s ts with
    | ended s' rest => exact ⟨0, .ended next⟩
    | broken s' rest => exact ⟨1, .broken next⟩
    | failed e => exact ⟨1, .failed next⟩
    | onward s' rest =>
      obtain ⟨n, run⟩ := ih rest.length (length ▸ (moves_onward moves next).2) s' rest rfl
      exact ⟨n + 1, .onward next run⟩

variable {n : Nat} {s s' : σ} {ts rest : List Token}

/-- Each turn but the last one has a token of its own. -/
theorem Loops.count_le {answer : Except ε (σ × List Token)} (run : Loops turn n s ts answer) : n ≤ ts.length + 1 := by
  induction run with
  | ended => omega
  | broken => omega
  | failed => omega
  | @onward s s' ts rest n answer next run ih =>
    have less := (moves_onward moves next).2
    omega

/-- A loop that is over once there are no tokens has a token for the last turn as well. -/
theorem Loops.count_le_length {answer : Except ε (σ × List Token)} (done : ∀ s, ∃ s' rest, turn s [] = .ended s' rest)
    (run : Loops turn n s ts answer) : n ≤ ts.length := by
  have filled (s : σ) (ts : List Token) (going : ∀ s' rest, turn s ts ≠ .ended s' rest) : 0 < ts.length := by
    cases ts with
    | nil =>
      obtain ⟨s', rest, stopped⟩ := done s
      exact absurd stopped (going s' rest)
    | cons t ts => exact Nat.succ_pos _
  induction run with
  | ended => exact Nat.zero_le _
  | @broken s s' ts rest next => exact filled s ts (by simp [next])
  | @failed s ts e next => exact filled s ts (by simp [next])
  | @onward s s' ts rest n answer next run ih =>
    have less := (moves_onward moves next).2
    omega

/-- What a loop leaves is the end of what it was given. -/
theorem Loops.suffix {answer : Except ε (σ × List Token)} (run : Loops turn n s ts answer)
    (ended : answer = .ok (s', rest)) : rest <:+ ts := by
  induction run with
  | @ended s s' ts rest next =>
    cases ended
    have moved := moves s ts
    rwa [next] at moved
  | @broken s s' ts rest next =>
    cases ended
    have moved := moves s ts
    rwa [next] at moved
  | failed => cases ended
  | @onward s s' ts rest n answer next run ih =>
    exact (ih ended).trans (moves_onward moves next).1

end Runs

/-! ## Readers that are loops -/

/-- The reader `read` takes what `first` takes and is the loop of `turn` from there on. No part of it gives tokens back,
each turn that is not the last takes one, and there are not more turns than the reader was given tokens. -/
structure Looped (first : List Token → Except ε (σ × List Token)) (turn : σ → List Token → Turn ε σ)
    (read : List Token → Except ε (σ × List Token)) : Prop where
  refuses : ∀ ts e, first ts = .error e → read ts = .error e
  enters : ∀ ts s rest, first ts = .ok (s, rest) → rest <:+ ts
  moves : ∀ s ts, (turn s ts).Moves ts
  loops : ∀ ts s rest, first ts = .ok (s, rest) → ∃ n ≤ ts.length, Loops turn n s rest (read ts)
  leaves : ∀ ts s rest, read ts = .ok (s, rest) → rest <:+ ts

variable {first : List Token → Except ε (σ × List Token)} {turn : σ → List Token → Turn ε σ}
  {read : List Token → Except ε (σ × List Token)}

/-- For a loop it is enough to look at a single turn: that it moves, and that reading further is what it says. The first
part of the reader takes a token, or the loop is over once there are none. -/
theorem Looped.of_turn (further : σ → List Token → Except ε (σ × List Token))
    (reads : ∀ ts, read ts = (first ts).bind fun (s, rest) => further s rest)
    (moves : ∀ s ts, (turn s ts).Moves ts) (unfolds : ∀ s ts, further s ts = (turn s ts).answer further)
    (starts : Taking first ∨ (∀ ts s rest, first ts = .ok (s, rest) → rest <:+ ts) ∧
      ∀ s, ∃ s' rest, turn s [] = .ended s' rest) : Looped first turn read := by
  have enters (ts : List Token) (s : σ) (rest : List Token) (h : first ts = .ok (s, rest)) : rest <:+ ts := by
    rcases starts with takes | ⟨keeps, -⟩
    · exact (takes ts s rest h).1
    · exact keeps ts s rest h
  refine ⟨?_, enters, moves, ?_, ?_⟩
  · intro ts e h
    rw [reads, h]
    rfl
  · intro ts s rest h
    have entered : read ts = further s rest := by rw [reads, h]; rfl
    obtain ⟨n, run⟩ := exists_loops moves unfolds s rest
    refine ⟨n, ?_, entered ▸ run⟩
    rcases starts with takes | ⟨-, done⟩
    · exact (run.count_le moves).trans (takes ts s rest h).2
    · exact (run.count_le_length moves done).trans (enters ts s rest h).length_le
  · intro ts s rest h
    cases begun : first ts with
    | error e =>
      rw [reads, begun] at h
      cases h
    | ok p =>
      have entered : read ts = further p.1 p.2 := by rw [reads, begun]; rfl
      obtain ⟨n, run⟩ := exists_loops moves unfolds p.1 p.2
      exact (run.suffix moves (entered.symm.trans h)).trans (enters ts p.1 p.2 begun)

end Stylebook
