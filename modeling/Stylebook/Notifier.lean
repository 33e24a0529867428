import Stylebook.Event

/-!
# Passing events on

Events reach two kinds of receivers. An observer is called at once with each event, and its log is what it
was called with. A channel collects events until they are taken out; its receiver may hang up, which the
notifier notices when it next has something to send.

Observers and channels are numbered in the order in which they came, and no number is used again.
-/

set_option autoImplicit false

namespace Stylebook

/-- A receiver that is called with each event. -/
structure Observer where
  subscribed : Bool
  /-- The events it was called with, oldest first. -/
  log : List Event

/-- A queue of events. -/
structure Channel where
  /-- Whether the notifier still sends to the channel. -/
  attached : Bool
  /-- Whether the receiver has not hung up. -/
  isOpen : Bool
  /-- Events that were sent and not taken out, oldest first. -/
  pending : List Event

/-- Passes events on to observers and channels. -/
structure Notifier where
  observers : List Observer
  channels : List Channel

/-- Calls the observer, if it is subscribed. -/
def Observer.receive (e : Event) (o : Observer) : Observer :=
  if o.subscribed then { o with log := o.log ++ [e] } else o

/-- Sends to the channel, if it is attached; a receiver that has hung up is forgotten. -/
def Channel.receive (e : Event) (c : Channel) : Channel :=
  if !c.attached then c
  else if c.isOpen then { c with pending := c.pending ++ [e] }
  else { c with attached := false }

namespace Notifier

def empty : Notifier := ⟨[], []⟩

/-- Adds an observer, and answers its number. -/
def subscribe (n : Notifier) : Nat × Notifier :=
  (n.observers.length, { n with observers := n.observers ++ [⟨true, []⟩] })

def isSubscribed (n : Notifier) (i : Nat) : Bool :=
  n.observers[i]?.any (·.subscribed)

/-- Ends a subscription, and says whether there was one. -/
def unsubscribe (n : Notifier) (i : Nat) : Bool × Notifier :=
  (n.isSubscribed i,
    { n with observers := n.observers.modify i fun o => { o with subscribed := false } })

def log? (n : Notifier) (i : Nat) : Option (List Event) :=
  n.observers[i]?.map (·.log)

def clearLog (n : Notifier) (i : Nat) : Notifier :=
  { n with observers := n.observers.modify i fun o => { o with log := [] } }

/-- Opens a channel, and answers its number. -/
def channel (n : Notifier) : Nat × Notifier :=
  (n.channels.length, { n with channels := n.channels ++ [⟨true, true, []⟩] })

/-- Takes every event out of a channel. -/
def drain (n : Notifier) (i : Nat) : List Event × Notifier :=
  match n.channels[i]? with
  | some c => (c.pending, { n with channels := n.channels.modify i fun c => { c with pending := [] } })
  | none => ([], n)

/-- The receiver of a channel hangs up; answers whether it was there. -/
def hangUp (n : Notifier) (i : Nat) : Bool × Notifier :=
  (n.channels[i]?.any (·.isOpen),
    { n with channels := n.channels.modify i fun c => { c with isOpen := false, pending := [] } })

/-- Passes an event on to every observer and channel. -/
def notify (n : Notifier) (e : Event) : Notifier :=
  ⟨n.observers.map (·.receive e), n.channels.map (·.receive e)⟩

def describe (n : Notifier) : String :=
  "Notifier \x7b observers: " ++ toString (n.observers.filter (·.subscribed)).length
    ++ ", channels: " ++ toString (n.channels.filter (·.attached)).length ++ " \x7d"

end Notifier

end Stylebook
