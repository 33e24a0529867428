import Stylebook.Content.Basic
import Stylebook.Location
import Stylebook.Revision

/-!
# Style sheets

A sheet is content with a location, a name, perhaps a group, and a flag that says whether it takes part in
lookups. A sheet that is refreshed when its source changes has a refresh state besides.
-/

set_option autoImplicit false

namespace Stylebook

/-- How a sheet learns that its source has changed. -/
inductive Monitoring where
  /-- By asking the source from time to time. -/
  | polling
  /-- By being told. -/
  | events
  deriving DecidableEq

/-- What is kept about the refreshes of a sheet. -/
structure RefreshState where
  /-- The revision of the content that is loaded, if it is known. -/
  lastModified : Option Revision
  /-- When the source last failed to be read, in milliseconds; nothing after a good read. -/
  failedAt : Option Nat
  monitoring : Monitoring
  /-- The watch that is kept on the source. -/
  watch : Option Nat
  deriving DecidableEq

/-- The state before the first refresh. -/
def RefreshState.initial : RefreshState :=
  ⟨none, none, .polling, none⟩

/-- A loaded style sheet. -/
structure Sheet where
  location : Location
  name : String
  /-- The group of the sheet; a sheet without one is in the default group. -/
  group : Option String
  active : Bool
  content : Content
  refresh : Option RefreshState
  deriving DecidableEq

namespace Sheet

/-- An active sheet of the default group, named after the last component of its location. -/
def of (location : Location) (content : Content) : Sheet :=
  ⟨location, location.lastComponent, none, true, content, none⟩

/-- The sheet of a location with the name and the group that were asked for, if any. -/
def build (location : Location) (content : Content) (name group : Option String) : Sheet :=
  let sheet := of location content
  { sheet with name := name.getD sheet.name, group := group }

def refreshable (s : Sheet) : Sheet :=
  { s with refresh := some .initial }

/-- Whether the sheet is refreshed when its source changes. -/
def isRefreshable (s : Sheet) : Bool :=
  s.refresh.isSome

/-- Whether the source of the sheet is asked for changes from time to time. -/
def isPolling (s : Sheet) : Bool :=
  match s.refresh with
  | some r => r.monitoring == .polling
  | none => false

def valueOf? (s : Sheet) (name : String) : Option String :=
  s.content.valueOf? name

/-- The sheet with its refresh state changed, if it has one. -/
def mapRefresh (s : Sheet) (f : RefreshState → RefreshState) : Sheet :=
  { s with refresh := s.refresh.map f }

end Sheet

end Stylebook
