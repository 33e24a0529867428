import Stylebook.Text.Truth

/-!
# Guards

A guard keeps something going until it is let go, and then undoes it once (`WatchGuard.release_release`). What
it undoes is a change of a state of type `σ`, such as the board that a watch is on.
-/

set_option autoImplicit false

namespace Stylebook

/-- Something that is undone when it is let go. -/
structure WatchGuard (σ : Type) where
  /-- What is still to be done; nothing once the guard has been let go. -/
  teardown : Option (σ → σ)

namespace WatchGuard

variable {σ : Type}

/-- A guard that runs `teardown` when it is let go. -/
def ofTeardown (teardown : σ → σ) : WatchGuard σ := ⟨some teardown⟩

/-- A guard that keeps a resource and lets it go. -/
def holding : WatchGuard σ := ofTeardown id

def isArmed (g : WatchGuard σ) : Bool :=
  g.teardown.isSome

/-- Lets the guard go. -/
def release (g : WatchGuard σ) (s : σ) : WatchGuard σ × σ :=
  match g.teardown with
  | some teardown => (⟨none⟩, teardown s)
  | none => (g, s)

/-- A guard that has been let go does nothing when it is let go again. -/
theorem release_release (g : WatchGuard σ) (s : σ) :
    (g.release s).1.release (g.release s).2 = g.release s := by
  obtain ⟨_ | f⟩ := g <;> rfl

def describe (g : WatchGuard σ) : String :=
  "WatchGuard \x7b armed: " ++ Text.truth g.isArmed ++ " \x7d"

end WatchGuard

end Stylebook
