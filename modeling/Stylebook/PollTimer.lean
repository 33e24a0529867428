/-!
# The timer of polls

A timer has a period and a deadline. When time has reached the deadline the timer fires once and sets a new
deadline: one period after the old one, or one period from now if the old one was missed by more than the
tolerance. Times are milliseconds.
-/

set_option autoImplicit false

namespace Stylebook

/-- A timer that fires again and again. -/
structure PollTimer where
  period : Nat
  deadline : Nat
  period_pos : 0 < period
  deriving DecidableEq

namespace PollTimer

/-- How late a timer may fire and still keep its rhythm. -/
def tolerance : Nat := 5

/-- A timer that first fires one period from now; none without a period. -/
def start? (period now : Nat) : Option PollTimer :=
  if h : 0 < period then some ⟨period, now + period, h⟩ else none

/-- The deadline after the timer fired. -/
def nextDeadline (t : PollTimer) (now : Nat) : Nat :=
  if t.deadline + tolerance < now then now + t.period else t.deadline + t.period

/-- How often the timer fires when the time is `now`, and the timer afterwards. -/
def fire (t : PollTimer) (now : Nat) : Nat × PollTimer :=
  if t.deadline ≤ now then
    let (count, t') := fire { t with deadline := t.nextDeadline now } now
    (count + 1, t')
  else (0, t)
  termination_by now + 1 - t.deadline
  decreasing_by
    have := t.period_pos
    simp only [nextDeadline]
    split <;> omega

end PollTimer

end Stylebook
