import Stylebook.Repository.Basic

/-!
# Polls of a repository

While polls are wanted, there is a clock and the refresh interval is not zero, a timer queues a request to
poll once every interval. Requests that were queued stay queued when the timer stops.
-/

set_option autoImplicit false

namespace Stylebook.Repository

variable {σ : Type}

/-- A timer that starts now, if one can run. -/
def newTimer? (r : Repository σ) : Option PollTimer :=
  if r.hasClock then PollTimer.start? r.config.refreshInterval r.now else none

/-- Asks for polls. A timer that runs goes on. -/
def enableTimer (r : Repository σ) : Repository σ :=
  { r with
    timerEnabled := true
    timer := match r.timer with
      | some t => some t
      | none => r.newTimer? }

def disableTimer (r : Repository σ) : Repository σ :=
  { r with timerEnabled := false, timer := none }

/-- Ends the polls if no sheet is polled. -/
def disableIdleTimer (r : Repository σ) : Repository σ :=
  if r.timerEnabled && !r.sheets.entries.any (fun e => e.2.isPolling) then r.disableTimer else r

/-- Changes the refresh interval. If polls are wanted, a timer with the new period starts now. -/
def setInterval (r : Repository σ) (interval : Nat) : Repository σ :=
  let r := { r with config := { r.config with refreshInterval := interval } }
  if r.timerEnabled then { r with timer := r.newTimer? } else r

/-- Lets some time pass at once. -/
def advance (r : Repository σ) (milliseconds : Nat) : Repository σ :=
  let now := r.now + milliseconds
  match r.timer with
  | none => { r with now := now }
  | some t =>
    let (count, timer) := t.fire now
    { r with
      now := now
      timer := some timer
      queue := r.queue ++ List.replicate count .poll }

/-- How long it takes until the timer fires, but at most so many milliseconds. -/
def untilNextPoll (r : Repository σ) (limit : Nat) : Nat :=
  match r.timer with
  | some t => min limit (t.deadline - r.now)
  | none => limit

/-! ## What these operations may change -/

theorem disableIdleTimer_eq (r : Repository σ) :
    ∃ enabled timer, r.disableIdleTimer = { r with timerEnabled := enabled, timer := timer } := by
  unfold disableIdleTimer
  split
  · exact ⟨_, _, rfl⟩
  · exact ⟨r.timerEnabled, r.timer, rfl⟩

theorem setInterval_eq (r : Repository σ) (interval : Nat) :
    ∃ config timer, r.setInterval interval = { r with config := config, timer := timer } := by
  unfold setInterval
  dsimp only
  split <;> exact ⟨_, _, rfl⟩

theorem advance_eq (r : Repository σ) (milliseconds : Nat) :
    ∃ timer queue, r.advance milliseconds
      = { r with now := r.now + milliseconds, timer := timer, queue := queue } := by
  unfold advance
  dsimp only
  split
  · exact ⟨r.timer, r.queue, rfl⟩
  · exact ⟨_, _, rfl⟩

end Stylebook.Repository
