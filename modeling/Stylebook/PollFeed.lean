import Stylebook.PollTimer

/-!
# Polls for a receiver

A feed collects the polls of one timer until the receiver takes them out. It is closed when no poll can
come any more: the timer has been stopped, or never started, or the receiver has hung up.
-/

set_option autoImplicit false

namespace Stylebook

/-- A timer with the polls that its receiver has not taken out. -/
structure PollFeed where
  timer : Option PollTimer
  now : Nat
  waiting : Nat
  hasReceiver : Bool

namespace PollFeed

/-- A feed at time zero; its timer runs if there is a clock and the period is not zero. -/
def start (hasClock : Bool) (period : Nat) : PollFeed :=
  ⟨if hasClock then PollTimer.start? period 0 else none, 0, 0, true⟩

def period? (f : PollFeed) : Option Nat :=
  f.timer.map (·.period)

/-- Whether no poll can come any more. -/
def isClosed (f : PollFeed) : Bool :=
  f.timer.isNone || !f.hasReceiver

def advance (f : PollFeed) (milliseconds : Nat) : PollFeed :=
  let now := f.now + milliseconds
  match f.timer with
  | none => { f with now := now }
  | some t =>
    let (count, timer) := t.fire now
    { f with
      timer := some timer
      now := now
      waiting := if f.hasReceiver then f.waiting + count else f.waiting }

/-- Takes out every poll that waits, and answers how many there were. -/
def drain (f : PollFeed) : Nat × PollFeed :=
  (f.waiting, { f with waiting := 0 })

/-- Stops the timer. What waits can still be taken out. -/
def stop (f : PollFeed) : PollFeed :=
  { f with timer := none }

/-- The receiver hangs up, and what waits is lost. -/
def hangUp (f : PollFeed) : PollFeed :=
  { f with hasReceiver := false, waiting := 0 }

end PollFeed

end Stylebook
