import Mathlib.Data.List.Basic
import Mathlib.Data.List.Induction
import Mathlib.Data.Set.Insert
import Stylebook.Notifier

/-!
# Events are delivered once and in order

What happens to a notifier is a row of actions: observers come and go, channels are opened, their receivers take out
events or hang up, and events are passed on. An action meets each receiver by itself (`observers_perform`,
`channels_perform`): what becomes of an observer or a channel depends on its number and on the actions, and on no other
receiver. So a run is followed for one receiver at a time, from where it came.

For an observer, the log grows by what is passed on until it goes (`Observer.foldl_step`). For a channel, what was taken
out and what is pending only change together: taking out moves events from the one to the other, and what is passed on
comes last (`handed_append_pending`). To drain a channel is to take out all (`drain_eq_collect`). A receiver that has
hung up is forgotten with the next delivery, which no other receiver notices (`AgreeBut.foldl_perform`).
-/

set_option autoImplicit false

namespace Stylebook

namespace Notifier

/-- The receiver of a channel takes out so many events, oldest first. -/
def collect (n : Notifier) (i count : Nat) : List Event × Notifier :=
  ((n.channels[i]?.map (·.pending.take count)).getD [],
    { n with channels := n.channels.modify i fun c => { c with pending := c.pending.drop count } })

/-- To drain a channel is to take out all that is pending, or more. -/
theorem drain_eq_collect {n : Notifier} {i count : Nat} {c : Channel} (there : n.channels[i]? = some c)
    (enough : c.pending.length ≤ count) : n.drain i = n.collect i count := by
  have same : n.channels.modify i (fun c => { c with pending := [] }) =
      n.channels.modify i fun c => { c with pending := c.pending.drop count } := by
    refine List.ext_getElem? fun k => ?_
    rw [List.getElem?_modify, List.getElem?_modify]
    by_cases here : i = k
    · subst here
      simp [there, List.drop_eq_nil_of_le enough]
    · simp [here]
  simp only [drain, collect, there, same, Option.map_some, Option.getD_some, List.take_of_length_le enough]

/-- Something that happens to a notifier. -/
inductive Action where
  | subscribe
  | unsubscribe (observer : Nat)
  | openChannel
  /-- The receiver of a channel takes out so many events. -/
  | collect (channel count : Nat)
  /-- The receiver of a channel hangs up. -/
  | hangUp (channel : Nat)
  | notify (e : Event)
  deriving DecidableEq

def perform (n : Notifier) : Action → Notifier
  | .subscribe => n.subscribe.2
  | .unsubscribe i => (n.unsubscribe i).2
  | .openChannel => n.channel.2
  | .collect i count => (n.collect i count).2
  | .hangUp i => (n.hangUp i).2
  | .notify e => n.notify e

/-- The notifier after a row of actions. -/
def run (as : List Action) : Notifier :=
  as.foldl perform empty

/-- The events that are passed on in a row of actions. -/
def notified (as : List Action) : List Event :=
  as.filterMap fun
    | .notify e => some e
    | _ => none

/-- The events that the receiver of a channel gets with an action. -/
def handed (n : Notifier) (i : Nat) : Action → List Event
  | .collect k count => if k = i then (n.collect i count).1 else []
  | _ => []

/-- The events that the receiver of a channel gets with a row of actions. -/
def collected (n : Notifier) (i : Nat) : List Action → List Event
  | [] => []
  | a :: rest => n.handed i a ++ (n.perform a).collected i rest

/-- An observer got its number in a row of actions, and these came later. -/
def Joined (as : List Action) (i : Nat) (later : List Action) : Prop :=
  ∃ front, as = front ++ .subscribe :: later ∧ (run front).subscribe.1 = i

/-- A channel got its number in a row of actions, and these came later. -/
def Opened (as : List Action) (i : Nat) (later : List Action) : Prop :=
  ∃ front, as = front ++ .openChannel :: later ∧ (run front).channel.1 = i

end Notifier

open Notifier

/-! ## One receiver at a time -/

/-- What an action does to the observer with a number. -/
def Observer.step (i : Nat) (o : Observer) : Action → Observer
  | .unsubscribe k => if k = i then { o with subscribed := false } else o
  | .notify e => o.receive e
  | _ => o

/-- What an action does to the channel with a number. -/
def Channel.step (i : Nat) (c : Channel) : Action → Channel
  | .collect k count => if k = i then { c with pending := c.pending.drop count } else c
  | .hangUp k => if k = i then { c with isOpen := false, pending := [] } else c
  | .notify e => c.receive e
  | _ => c

namespace Notifier

variable {n n' : Notifier} {i : Nat}

/-- The observer that comes with an action. -/
def joining : Action → List Observer
  | .subscribe => [⟨true, []⟩]
  | _ => []

/-- The channel that comes with an action. -/
def opening : Action → List Channel
  | .openChannel => [⟨true, true, []⟩]
  | _ => []

/-- **An action meets each observer by itself**, whoever comes with it included. -/
theorem observers_perform (n : Notifier) (a : Action) (k : Nat) :
    (n.perform a).observers[k]? = (n.observers ++ joining a)[k]?.map (·.step k a) := by
  cases a with
  | unsubscribe i => simp [perform, unsubscribe, joining, Observer.step, List.getElem?_modify]
  | notify e => simp [perform, notify, joining, Observer.step]
  | subscribe | openChannel | collect | hangUp =>
    simp [perform, subscribe, channel, collect, hangUp, joining, Observer.step]

/-- **An action meets each channel by itself**, one that comes with it included. -/
theorem channels_perform (n : Notifier) (a : Action) (k : Nat) :
    (n.perform a).channels[k]? = (n.channels ++ opening a)[k]?.map (·.step k a) := by
  cases a with
  | collect i count => simp [perform, collect, opening, Channel.step, List.getElem?_modify]
  | hangUp i => simp [perform, hangUp, opening, Channel.step, List.getElem?_modify]
  | notify e => simp [perform, notify, opening, Channel.step]
  | subscribe | openChannel | unsubscribe =>
    simp [perform, subscribe, channel, unsubscribe, opening, Channel.step]

theorem length_observers_perform (n : Notifier) (a : Action) :
    (n.perform a).observers.length = n.observers.length + (joining a).length := by
  cases a <;> simp [perform, subscribe, channel, collect, hangUp, unsubscribe, notify, joining]

theorem length_channels_perform (n : Notifier) (a : Action) :
    (n.perform a).channels.length = n.channels.length + (opening a).length := by
  cases a <;> simp [perform, subscribe, channel, collect, hangUp, unsubscribe, notify, opening]

/-! ## Numbers -/

variable {as later : List Action}

theorem run_append (as bs : List Action) : run (as ++ bs) = bs.foldl perform (run as) :=
  List.foldl_append

theorem run_concat (as : List Action) (a : Action) : run (as ++ [a]) = (run as).perform a :=
  run_append as [a]

/-- Observers are numbered in the order in which they come. -/
theorem length_observers_run (as : List Action) : (run as).observers.length = as.count .subscribe := by
  induction as using List.reverseRecOn with
  | nil => rfl
  | append_singleton as a ih =>
    rw [run_concat, length_observers_perform, ih, List.count_append]
    cases a <;> rfl

/-- Channels are numbered in the order in which they are opened. -/
theorem length_channels_run (as : List Action) : (run as).channels.length = as.count .openChannel := by
  induction as using List.reverseRecOn with
  | nil => rfl
  | append_singleton as a ih =>
    rw [run_concat, length_channels_perform, ih, List.count_append]
    cases a <;> rfl

/-- In a row with more occurrences of an item, one has so many in front of it. -/
theorem exists_split_of_lt_count {α : Type} [DecidableEq α] {l : List α} {a : α} {i : Nat} (more : i < l.count a) :
    ∃ front later, l = front ++ a :: later ∧ front.count a = i := by
  induction l using List.reverseRecOn with
  | nil => cases more
  | append_singleton l b ih =>
    by_cases before : i < l.count a
    · obtain ⟨front, later, rfl, place⟩ := ih before
      exact ⟨front, later ++ [b], by simp, place⟩
    · -- it is the last item
      rw [List.count_append, List.count_singleton] at more
      split at more
      · rename_i same
        exact ⟨l, [], by rw [eq_of_beq same], by omega⟩
      · omega

theorem exists_joined (there : i < (run as).observers.length) : ∃ later, Joined as i later := by
  rw [length_observers_run] at there
  obtain ⟨front, later, split, place⟩ := exists_split_of_lt_count there
  exact ⟨later, front, split, (length_observers_run front).trans place⟩

theorem exists_opened (there : i < (run as).channels.length) : ∃ later, Opened as i later := by
  rw [length_channels_run] at there
  obtain ⟨front, later, split, place⟩ := exists_split_of_lt_count there
  exact ⟨later, front, split, (length_channels_run front).trans place⟩

/-! ## Observers -/

variable {o : Observer} {c : Channel} {a : Action}

theorem observers_foldl (there : n.observers[i]? = some o) (later : List Action) :
    (later.foldl perform n).observers[i]? = some (later.foldl (Observer.step i) o) := by
  induction later generalizing n o with
  | nil => exact there
  | cons a rest ih =>
    refine ih ?_
    rw [observers_perform, List.getElem?_append_left (List.getElem?_eq_some_iff.mp there).1, there]
    rfl

theorem observers_subscribe (n : Notifier) : (n.perform .subscribe).observers[n.subscribe.1]? = some ⟨true, []⟩ := by
  rw [observers_perform]
  simp [subscribe, joining, Observer.step]

/-- An observer is followed from where it joined. -/
theorem Joined.observers (joined : Joined as i later) :
    (run as).observers[i]? = some (later.foldl (Observer.step i) ⟨true, []⟩) := by
  obtain ⟨front, rfl, rfl⟩ := joined
  rw [run_append]
  exact observers_foldl (observers_subscribe (run front)) later

end Notifier

namespace Observer

variable {i : Nat}

/-- An observer that has gone gets nothing more. -/
theorem foldl_step_of_gone (log : List Event) (later : List Action) :
    later.foldl (step i) ⟨false, log⟩ = ⟨false, log⟩ := by
  induction later with
  | nil => rfl
  | cons a rest ih =>
    have kept : step i ⟨false, log⟩ a = ⟨false, log⟩ := by
      cases a with
      | unsubscribe k => simp [step]
      | notify e => simp [step, receive]
      | subscribe | openChannel | collect | hangUp => rfl
    rw [List.foldl_cons, kept, ih]

/-- **An observer gets what is passed on until it goes**, by induction on what comes later. -/
theorem foldl_step (log : List Event) (later : List Action) :
    later.foldl (step i) ⟨true, log⟩ =
      ⟨decide (.unsubscribe i ∉ later), log ++ notified (later.takeWhile (· ≠ .unsubscribe i))⟩ := by
  induction later generalizing log with
  | nil => simp [notified]
  | cons a rest ih =>
    rw [List.foldl_cons]
    by_cases goes : a = .unsubscribe i
    · subst goes
      have gone : step i ⟨true, log⟩ (.unsubscribe i) = ⟨false, log⟩ := if_pos rfl
      rw [gone, foldl_step_of_gone]
      simp [notified]
    · have stays : step i ⟨true, log⟩ a = ⟨true, log ++ notified [a]⟩ := by
        cases a with
        | unsubscribe k => simpa [step, notified] using fun same => goes (congrArg Action.unsubscribe same)
        | notify e => rfl
        | subscribe | openChannel | collect | hangUp => simp [step, notified]
      have row : notified (a :: rest.takeWhile (· ≠ .unsubscribe i)) =
          notified [a] ++ notified (rest.takeWhile (· ≠ .unsubscribe i)) := List.filterMap_append (l := [a])
      rw [stays, ih, List.takeWhile_cons, if_pos (decide_eq_true goes), row, List.append_assoc]
      simp [Ne.symm goes]

end Observer

/-! ## Channels -/

namespace Channel

variable {i : Nat} {c : Channel} {a : Action}

/-- The notifier sends to the channel, and the receiver has not hung up. -/
structure Alive (c : Channel) : Prop where
  attached : c.attached = true
  isOpen : c.isOpen = true

theorem Alive.receive (alive : c.Alive) (e : Event) : c.receive e = { c with pending := c.pending ++ [e] } := by
  simp [Channel.receive, alive.attached, alive.isOpen]

theorem Alive.step (alive : c.Alive) (stays : a ≠ .hangUp i) : (c.step i a).Alive := by
  cases a with
  | collect k count =>
    unfold Channel.step
    dsimp only
    split
    · exact ⟨alive.attached, alive.isOpen⟩
    · exact alive
  | hangUp k =>
    have other : k ≠ i := fun same => stays (congrArg Action.hangUp same)
    simpa [Channel.step, other] using alive
  | notify e =>
    rw [Channel.step, alive.receive]
    exact ⟨alive.attached, alive.isOpen⟩
  | subscribe | openChannel | unsubscribe => exact alive

theorem isOpen_step (i : Nat) (c : Channel) (a : Action) :
    (c.step i a).isOpen = true ↔ c.isOpen = true ∧ a ≠ .hangUp i := by
  cases a with
  | collect k count =>
    unfold step
    dsimp only
    split <;> simp
  | hangUp k => by_cases same : k = i <;> simp [step, same]
  | notify e =>
    simp only [step, receive]
    split
    · simp
    · split <;> simp
  | subscribe | openChannel | unsubscribe => simp [step]

/-- A channel is open until its receiver hangs up. -/
theorem isOpen_foldl_step (i : Nat) (c : Channel) (later : List Action) :
    (later.foldl (step i) c).isOpen = true ↔ c.isOpen = true ∧ .hangUp i ∉ later := by
  induction later generalizing c with
  | nil => simp
  | cons a rest ih =>
    rw [List.foldl_cons, ih, isOpen_step, and_assoc, List.mem_cons, not_or, ne_comm]

end Channel

namespace Notifier

variable {n n' : Notifier} {i : Nat} {as later : List Action} {c : Channel} {a : Action}

theorem channels_perform_of_there (there : n.channels[i]? = some c) (a : Action) :
    (n.perform a).channels[i]? = some (c.step i a) := by
  rw [channels_perform, List.getElem?_append_left (List.getElem?_eq_some_iff.mp there).1, there]
  rfl

theorem channels_foldl (there : n.channels[i]? = some c) (later : List Action) :
    (later.foldl perform n).channels[i]? = some (later.foldl (Channel.step i) c) := by
  induction later generalizing n c with
  | nil => exact there
  | cons a rest ih => exact ih (channels_perform_of_there there a)

/-- **What was taken out, and what is pending behind it, grows by what is passed on.** -/
theorem handed_append_pending (there : n.channels[i]? = some c) (alive : c.Alive) (stays : a ≠ .hangUp i) :
    n.handed i a ++ (c.step i a).pending = c.pending ++ notified [a] := by
  cases a with
  | collect k count =>
    by_cases here : k = i
    · subst here
      simp [handed, collect, there, Channel.step, notified]
    · simp [handed, Channel.step, notified, here]
  | hangUp k =>
    have other : k ≠ i := fun same => stays (congrArg Action.hangUp same)
    simp [handed, Channel.step, notified, other]
  | notify e =>
    rw [Channel.step, alive.receive]
    rfl
  | subscribe | openChannel | unsubscribe => simp [handed, Channel.step, notified]

/-- As long as the receiver does not hang up, by induction on what comes later. -/
theorem collected_append_pending (there : n.channels[i]? = some c) (alive : c.Alive) (stays : .hangUp i ∉ later) :
    (later.foldl (Channel.step i) c).Alive ∧
      n.collected i later ++ (later.foldl (Channel.step i) c).pending = c.pending ++ notified later := by
  induction later generalizing n c with
  | nil => exact ⟨alive, by simp [collected, notified]⟩
  | cons a rest ih =>
    obtain ⟨first, others⟩ := not_or.mp (mt List.mem_cons.mpr stays)
    obtain ⟨alive', rest_eq⟩ := ih (channels_perform_of_there there a) (alive.step (Ne.symm first)) others
    refine ⟨alive', ?_⟩
    calc n.collected i (a :: rest) ++ (rest.foldl (Channel.step i) (c.step i a)).pending
        = n.handed i a ++ ((c.step i a).pending ++ notified rest) := by rw [collected, List.append_assoc, rest_eq]
      _ = c.pending ++ (notified [a] ++ notified rest) := by
          rw [← List.append_assoc, handed_append_pending there alive (Ne.symm first), List.append_assoc]
      _ = c.pending ++ notified (a :: rest) := by rw [notified, notified, ← List.filterMap_append]; rfl

theorem collected_append (n : Notifier) (i : Nat) (as bs : List Action) :
    n.collected i (as ++ bs) = n.collected i as ++ (as.foldl perform n).collected i bs := by
  induction as generalizing n with
  | nil => rfl
  | cons a rest ih => rw [List.cons_append, collected, ih, collected, List.append_assoc, List.foldl_cons]

/-- Nothing is taken out of a channel before it is opened. -/
theorem collected_of_missing (missing : (run as).channels.length ≤ i) : empty.collected i as = [] := by
  induction as using List.reverseRecOn with
  | nil => rfl
  | append_singleton as a ih =>
    rw [run_concat, length_channels_perform] at missing
    have before : (run as).channels.length ≤ i := Nat.le_of_add_right_le missing
    have none : (run as).channels[i]? = none := List.getElem?_eq_none before
    rw [collected_append, ih before, List.nil_append]
    show (run as).handed i a ++ [] = []
    cases a with
    | collect k count =>
      by_cases here : k = i
      · subst here
        simp [handed, collect, none]
      · simp [handed, here]
    | subscribe | openChannel | unsubscribe | hangUp | notify => rfl

theorem channels_openChannel (n : Notifier) :
    (n.perform .openChannel).channels[n.channel.1]? = some ⟨true, true, []⟩ := by
  rw [channels_perform]
  simp [channel, opening, Channel.step]

/-- A channel is followed from where it was opened. -/
theorem Opened.channels (opened : Opened as i later) :
    (run as).channels[i]? = some (later.foldl (Channel.step i) ⟨true, true, []⟩) := by
  obtain ⟨front, rfl, rfl⟩ := opened
  rw [run_append]
  exact channels_foldl (channels_openChannel (run front)) later

/-- **A channel holds or has delivered what was passed on since it was opened.** -/
theorem Opened.delivered (opened : Opened as i later) (stays : .hangUp i ∉ later) :
    (later.foldl (Channel.step i) ⟨true, true, []⟩).Alive ∧
      empty.collected i as ++ (later.foldl (Channel.step i) ⟨true, true, []⟩).pending = notified later := by
  obtain ⟨front, rfl, rfl⟩ := opened
  obtain ⟨alive, delivered⟩ := collected_append_pending (channels_openChannel (run front)) ⟨rfl, rfl⟩ stays
  refine ⟨alive, ?_⟩
  have before : empty.collected (run front).channel.1 front = [] := collected_of_missing (Nat.le_refl _)
  rw [collected_append, before]
  exact delivered

/-! ## Receivers that others do not notice -/

/-- The notifiers agree on all observers but some and on all channels but some. -/
structure AgreeBut (observers channels : Set Nat) (n n' : Notifier) : Prop where
  observersLength : n'.observers.length = n.observers.length
  channelsLength : n'.channels.length = n.channels.length
  observer : ∀ k ∉ observers, n'.observers[k]? = n.observers[k]?
  channel : ∀ k ∉ channels, n'.channels[k]? = n.channels[k]?

theorem agreeBut_unsubscribe (n : Notifier) (i : Nat) : AgreeBut {i} ∅ n (n.unsubscribe i).2 where
  observersLength := by simp [unsubscribe]
  channelsLength := rfl
  observer k other := by
    have apart : i ≠ k := fun same => other same.symm
    simp [unsubscribe, apart]
  channel _ _ := rfl

theorem agreeBut_hangUp (n : Notifier) (i : Nat) : AgreeBut ∅ {i} n (n.hangUp i).2 where
  observersLength := rfl
  channelsLength := by simp [hangUp]
  observer _ _ := rfl
  channel k other := by
    have apart : i ≠ k := fun same => other same.symm
    simp [hangUp, apart]

variable {observers channels : Set Nat}

theorem AgreeBut.perform (agree : AgreeBut observers channels n n') (a : Action) :
    AgreeBut observers channels (n.perform a) (n'.perform a) where
  observersLength := by rw [length_observers_perform, length_observers_perform, agree.observersLength]
  channelsLength := by rw [length_channels_perform, length_channels_perform, agree.channelsLength]
  observer k other := by
    rw [observers_perform, observers_perform, List.getElem?_append, List.getElem?_append, agree.observersLength,
      agree.observer k other]
  channel k other := by
    rw [channels_perform, channels_perform, List.getElem?_append, List.getElem?_append, agree.channelsLength,
      agree.channel k other]

/-- What the others do not notice at once they never notice. -/
theorem AgreeBut.foldl_perform (agree : AgreeBut observers channels n n') (later : List Action) :
    AgreeBut observers channels (later.foldl Notifier.perform n) (later.foldl Notifier.perform n') := by
  induction later generalizing n n' with
  | nil => exact agree
  | cons a rest ih => exact ih (agree.perform a)

/-! ## Runs -/

theorem log?_run_iff {log : List Event} :
    (run as).log? i = some log ↔
      ∃ later, Joined as i later ∧ notified (later.takeWhile (· ≠ .unsubscribe i)) = log := by
  constructor
  · intro heard
    obtain ⟨o, there, rfl⟩ := Option.map_eq_some_iff.mp heard
    obtain ⟨later, joined⟩ := exists_joined (List.getElem?_eq_some_iff.mp there).1
    refine ⟨later, joined, ?_⟩
    rw [joined.observers, Observer.foldl_step] at there
    rw [← Option.some.inj there, List.nil_append]
  · rintro ⟨later, joined, rfl⟩
    rw [log?, joined.observers, Observer.foldl_step]
    rfl

theorem isSubscribed_run_iff :
    (run as).isSubscribed i = true ↔ ∃ later, Joined as i later ∧ .unsubscribe i ∉ later := by
  have of_joined {later : List Action} (joined : Joined as i later) :
      (run as).isSubscribed i = true ↔ .unsubscribe i ∉ later := by
    rw [isSubscribed, joined.observers, Observer.foldl_step]
    exact decide_eq_true_iff
  constructor
  · intro subscribed
    have there : i < (run as).observers.length := by
      by_contra missing
      rw [isSubscribed, List.getElem?_eq_none (Nat.not_lt.mp missing)] at subscribed
      cases subscribed
    obtain ⟨later, joined⟩ := exists_joined there
    exact ⟨later, joined, (of_joined joined).mp subscribed⟩
  · rintro ⟨later, joined, stays⟩
    exact (of_joined joined).mpr stays

/-- **Each event is delivered once and in order.** Whatever is done with a notifier, the log of an observer is the row
of the events that were passed on after it joined and before it went. What was taken out of a channel, with what is
pending behind it, is the row of the events that were passed on since the channel was opened, as long as its receiver
has not hung up.

There is a subscription to end if its observer has joined and has not gone. When an observer goes, all other observers
and all channels are for good as if it had not; and when a receiver hangs up, so are all observers and all other
channels. -/
theorem exactly_once (as : List Action) :
    let n := run as
    (∀ i log, n.log? i = some log ↔
      ∃ later, Joined as i later ∧ notified (later.takeWhile (· ≠ .unsubscribe i)) = log) ∧
    (∀ i later, Opened as i later → ∃ c, n.channels[i]? = some c ∧ (c.isOpen = true ↔ .hangUp i ∉ later) ∧
      (c.isOpen = true → c.attached = true ∧ empty.collected i as ++ c.pending = notified later)) ∧
    (∀ i, (n.channels[i]?).isSome → ∃ later, Opened as i later) ∧
    (∀ i, (n.unsubscribe i).1 = true ↔ ∃ later, Joined as i later ∧ .unsubscribe i ∉ later) ∧
    (∀ front i later, as = front ++ .unsubscribe i :: later → AgreeBut {i} ∅ (run (front ++ later)) n) ∧
    ∀ front i later, as = front ++ .hangUp i :: later → AgreeBut ∅ {i} (run (front ++ later)) n := by
  intro n
  refine ⟨fun i log => log?_run_iff, fun i later opened => ?_, fun i there => ?_, fun i => isSubscribed_run_iff,
    ?_, ?_⟩
  · have isOpen := Channel.isOpen_foldl_step i ⟨true, true, []⟩ later
    refine ⟨_, opened.channels, isOpen.trans (and_iff_right rfl), fun still => ?_⟩
    obtain ⟨alive, delivered⟩ := opened.delivered (isOpen.mp still).2
    exact ⟨alive.attached, delivered⟩
  · obtain ⟨c, there⟩ := Option.isSome_iff_exists.mp there
    exact exists_opened (List.getElem?_eq_some_iff.mp there).1
  · rintro front i later rfl
    show AgreeBut {i} ∅ (run (front ++ later)) (run (front ++ .unsubscribe i :: later))
    rw [run_append, run_append]
    exact (agreeBut_unsubscribe (run front) i).foldl_perform later
  · rintro front i later rfl
    show AgreeBut ∅ {i} (run (front ++ later)) (run (front ++ .hangUp i :: later))
    rw [run_append, run_append]
    exact (agreeBut_hangUp (run front) i).foldl_perform later

/-- Two observers, one of which goes, and two channels, the second of which is closed by its receiver: the first event
has been taken out of the other one, and two more are pending there. -/
theorem exactly_once_two :
    let front : List Action := [.subscribe, .openChannel, .openChannel, .notify .invalidateAll, .collect 0 1]
    let middle : List Action := [.notify (.willRefresh none), .subscribe]
    let back : List Action := [.notify (.willRefresh (some ⟨0⟩))]
    let as := front ++ .hangUp 1 :: (middle ++ .unsubscribe 0 :: back)
    (run as).log? 0 = some [.invalidateAll, .willRefresh none] ∧
      (∃ c, (run as).channels[0]? = some c ∧ c.isOpen = true ∧
        empty.collected 0 as ++ c.pending =
          [.invalidateAll, .willRefresh none, .willRefresh (some ⟨0⟩)]) ∧
      (∃ later, Opened as 1 later) ∧
      ((run as).unsubscribe 1).1 = true ∧
      AgreeBut {0} ∅ (run (front ++ .hangUp 1 :: (middle ++ back))) (run as) ∧
      AgreeBut ∅ {1} (run (front ++ (middle ++ .unsubscribe 0 :: back))) (run as) := by
  intro front middle back as
  obtain ⟨logs, channels, opened, subscribed, gone, hungUp⟩ := exactly_once as
  have first : Joined as 0 (as.drop 1) := ⟨[], rfl, rfl⟩
  have second : Joined as 1 (.unsubscribe 0 :: back) :=
    ⟨front ++ [.hangUp 1, .notify (.willRefresh none)], rfl, rfl⟩
  obtain ⟨c, there, isOpen, delivered⟩ := channels 0 (as.drop 2) ⟨[.subscribe], rfl, rfl⟩
  have still : c.isOpen = true := isOpen.mpr (by decide)
  refine ⟨(logs 0 _).mpr ⟨_, first, by decide⟩, ⟨c, there, still, (delivered still).2⟩, opened 1 rfl,
    (subscribed 1).mpr ⟨_, second, by decide⟩, ?_, ?_⟩
  · exact gone (front ++ .hangUp 1 :: middle) 0 back rfl
  · exact hungUp front 1 (middle ++ .unsubscribe 0 :: back) rfl

end Notifier

end Stylebook
