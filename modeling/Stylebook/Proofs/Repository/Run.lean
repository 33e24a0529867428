import Stylebook.Repository.Loading
import Stylebook.Repository.Unloading

/-!
# Runs of a repository

What can happen to a repository is one of a fixed list of operations. Most are done by its owner; the rest
come from elsewhere: time passes, a watched source is reported to have changed, a receiver of events takes
them or hangs up, or someone else changes the source. A run is any row of operations, in any order.

The owner gets a sheet back when it unloads it, and may register the same sheet again later. `Owner` keeps
the sheets that came back beside the repository, so that a statement about runs can speak of them.

A statement about runs names the operations that it allows, and `Reaches.invariant` is the one induction that
all of them use: what holds at the start and is kept by every allowed operation holds wherever a run leads.
-/

set_option autoImplicit false

namespace Stylebook

/-- Something that happens to a repository with a source of type `σ`. -/
inductive Operation (σ : Type) where
  | load (location : Location) (name group : Option String)
  | loadFromBundle (path : String) (name group : Option String)
  | loadRefreshable (location : Location) (name group : Option String)
  | register (sheet : Sheet)
  | setActive (id : SheetId) (active : Bool)
  | reload (id : SheetId) (force : Bool)
  | reloadAll (force : Bool)
  | processPending
  | awaitRequest (limit : Nat)
  | unload (id : SheetId)
  | unloadAll
  | enableTimer
  | disableTimer
  | setInterval (interval : Nat)
  | subscribe
  | unsubscribe (observer : Nat)
  | openChannel
  /-- The receiver of a channel takes its events out. -/
  | drain (channel : Nat)
  /-- The receiver of a channel hangs up. -/
  | hangUp (channel : Nat)
  | advance (milliseconds : Nat)
  /-- What is at a location is reported to have changed. -/
  | report (location : Location)
  /-- Someone else changes the source. -/
  | changeSource (change : σ → σ)

namespace Repository

variable {σ : Type}

/-- The sheets that an operation gives back to the owner. -/
def returned (r : Repository σ) : Operation σ → List Sheet
  | .unload id => (r.unload id).1.toOption.toList
  | _ => []

/-- A sheet comes back from `unload` alone, and it is the sheet that was loaded but for its watch. -/
theorem mem_returned {r : Repository σ} {op : Operation σ} {s : Sheet} (h : s ∈ r.returned op) :
    ∃ id t, op = .unload id ∧ r.get? id = some t ∧ s = t.unwatched := by
  cases op with
  | unload id =>
    refine ⟨id, ?_⟩
    unfold returned unload at h
    cases ht : r.get? id with
    | none => simp [ht, Except.toOption] at h
    | some t => exact ⟨t, rfl, rfl, by simpa [ht, Except.toOption] using h⟩
  | _ => exact absurd h (List.not_mem_nil)

variable [Source σ]

def perform (r : Repository σ) : Operation σ → Repository σ
  | .load location name group => (r.load location name group).2
  | .loadFromBundle path name group => (r.loadFromBundle path name group).2
  | .loadRefreshable location name group => (r.loadRefreshable location name group).2
  | .register sheet => (r.register sheet).2
  | .setActive id active => (r.setActive id active).2
  | .reload id force => (r.reload id force).2
  | .reloadAll force => r.reloadAll force
  | .processPending => r.processPending.2
  | .awaitRequest limit => (r.awaitRequest limit).2
  | .unload id => (r.unload id).2
  | .unloadAll => r.unloadAll
  | .enableTimer => r.enableTimer
  | .disableTimer => r.disableTimer
  | .setInterval interval => r.setInterval interval
  | .subscribe => { r with notifier := r.notifier.subscribe.2 }
  | .unsubscribe observer => { r with notifier := (r.notifier.unsubscribe observer).2 }
  | .openChannel => { r with notifier := r.notifier.channel.2 }
  | .drain channel => { r with notifier := (r.notifier.drain channel).2 }
  | .hangUp channel => { r with notifier := (r.notifier.hangUp channel).2 }
  | .advance milliseconds => r.advance milliseconds
  | .report location => (r.report location).2
  | .changeSource change => { r with source := change r.source }

end Repository

/-- A repository with the sheets that it has given back. -/
structure Owner (σ : Type) where
  repository : Repository σ
  /-- The sheets that were unloaded so far. -/
  unloaded : List Sheet

namespace Owner

variable {σ : Type}

/-- The owner of a repository without sheets. -/
def new (source : σ) (parser : String → Except ParseError Content) (board : Option WatchBoard)
    (config : RefreshConfig) (hasClock : Bool) : Owner σ :=
  ⟨{ Repository.empty source parser board config with hasClock := hasClock }, []⟩

def perform [Source σ] (o : Owner σ) (op : Operation σ) : Owner σ :=
  ⟨o.repository.perform op, o.unloaded ++ o.repository.returned op⟩

/-- A run leads from `start` to an owner by operations that are allowed where they happen. -/
inductive Reaches [Source σ] (allowed : Owner σ → Operation σ → Prop) (start : Owner σ) :
    Owner σ → Prop where
  | refl : Reaches allowed start start
  | step {o : Owner σ} {op : Operation σ} (run : Reaches allowed start o) (lawful : allowed o op) :
      Reaches allowed start (o.perform op)

/-- What holds at the start and is kept by every allowed operation holds wherever a run leads. -/
theorem Reaches.invariant [Source σ] {allowed : Owner σ → Operation σ → Prop} {start o : Owner σ}
    {I : Owner σ → Prop} (run : Reaches allowed start o) (initial : I start)
    (kept : ∀ o op, allowed o op → I o → I (o.perform op)) : I o := by
  induction run with
  | refl => exact initial
  | step _ lawful ih => exact kept _ _ lawful ih

end Owner

end Stylebook
