import Stylebook.Duration
import Stylebook.Notifier
import Stylebook.ParseError
import Stylebook.PollTimer
import Stylebook.Sheet.Scope
import Stylebook.Source.Basic
import Stylebook.StyleError
import Stylebook.Text.Truth
import Stylebook.WatchBoard

/-!
# The repository of style sheets

A repository holds the loaded sheets in the order in which they came, and each location at most once. It
reads them from a source of type `σ`, passes events on through a notifier, and refreshes sheets on request:
a request is queued by the timer of polls or by a change of a watched source, and is handled when the owner
of the repository asks for it.

Every operation answers its result together with the repository as it is afterwards. Time is a number of
milliseconds that only the owner moves.
-/

set_option autoImplicit false

namespace Stylebook

/-- A request to refresh sheets. -/
inductive Request where
  /-- Ask every source that is polled. -/
  | poll
  /-- The source of a sheet has changed. -/
  | modified (sheet : SheetId)
  deriving DecidableEq

/-- How often sources are asked for changes, in milliseconds. -/
structure RefreshConfig where
  /-- The period of the timer of polls; zero keeps the timer off. -/
  refreshInterval : Nat
  /-- For how long a poll leaves out a source that could not be read. -/
  errorRetryInterval : Nat
  deriving DecidableEq

/-- Polls every second, and retries after half a minute. -/
def RefreshConfig.standard : RefreshConfig := ⟨1000, 30000⟩

/-- Loaded sheets with everything that keeps them up to date. -/
structure Repository (σ : Type) where
  sheets : Table SheetId Sheet
  /-- The identifiers of the loaded sheets, oldest first. -/
  order : List SheetId
  /-- The index of the identifier that is issued next. -/
  nextIndex : Nat
  source : σ
  parser : String → Except ParseError Content
  /-- How often the parser was called. -/
  parses : Nat
  /-- Where sources are watched; without it, every refreshable sheet is polled. -/
  board : Option WatchBoard
  notifier : Notifier
  /-- Requests that are not handled yet, oldest first. -/
  queue : List Request
  config : RefreshConfig
  /-- Whether polls are wanted. -/
  timerEnabled : Bool
  /-- The timer that queues polls, if it runs. -/
  timer : Option PollTimer
  /-- Whether there is a clock that timers can run on. -/
  hasClock : Bool
  now : Nat

namespace Repository

variable {σ : Type}

def empty (source : σ) (parser : String → Except ParseError Content) (board : Option WatchBoard)
    (config : RefreshConfig) : Repository σ where
  sheets := .empty
  order := []
  nextIndex := 0
  source := source
  parser := parser
  parses := 0
  board := board
  notifier := .empty
  queue := []
  config := config
  timerEnabled := false
  timer := none
  hasClock := true
  now := 0

/-! ## Lookups -/

def get? (r : Repository σ) (id : SheetId) : Option Sheet :=
  r.sheets.get? id

/-- The loaded sheets with their identifiers, oldest first. -/
def entries (r : Repository σ) : List (SheetId × Sheet) :=
  r.order.filterMap fun id => (r.get? id).map (id, ·)

/-- The identifier of the sheet from a location. -/
def idAt? (r : Repository σ) (location : Location) : Option SheetId :=
  (r.entries.find? fun e => e.2.location == location).map (·.1)

/-- The identifier of the oldest sheet with a name. -/
def idNamed? (r : Repository σ) (name : String) : Option SheetId :=
  (r.entries.find? fun e => e.2.name == name).map (·.1)

def size (r : Repository σ) : Nat :=
  r.order.length

/-- The active sheets of a scope, oldest first. -/
def activeSheets (r : Repository σ) (scope : Scope) : List Sheet :=
  (r.entries.map (·.2)).filter fun s => s.active && scope.contains s

def timerRunning (r : Repository σ) : Bool :=
  r.timer.isSome

/-! ## Changes -/

/-- Passes an event on. -/
def emit (r : Repository σ) (e : Event) : Repository σ :=
  { r with notifier := r.notifier.notify e }

/-- Changes the sheet with an identifier, if it is loaded. -/
def update (r : Repository σ) (id : SheetId) (f : Sheet → Sheet) : Repository σ :=
  match r.get? id with
  | some sheet => { r with sheets := r.sheets.insert id (f sheet) }
  | none => r

/-- Stores a new sheet under an identifier of its own, as the newest one. -/
def insert (r : Repository σ) (sheet : Sheet) : SheetId × Repository σ :=
  let id : SheetId := ⟨r.nextIndex⟩
  let stored : Repository σ :=
    { r with
      sheets := r.sheets.insert id sheet
      order := r.order ++ [id]
      nextIndex := r.nextIndex + 1 }
  (id, stored.emit .invalidateAll)

/-- Sets whether a sheet takes part in lookups. -/
def setActive (r : Repository σ) (id : SheetId) (active : Bool) :
    Except StyleError Unit × Repository σ :=
  match r.get? id with
  | none => (.error .unknownSheet, r)
  | some sheet =>
    if sheet.active = active then (.ok (), r)
    else (.ok (), (r.update id fun s => { s with active := active }).emit .invalidateAll)

def describe (r : Repository σ) : String :=
  "StyleSheetRepository \x7b stylesheets: " ++ toString r.size
    ++ ", monitored: " ++ Text.truth r.board.isSome
    ++ ", timer_enabled: " ++ Text.truth r.timerEnabled
    ++ ", timer_running: " ++ Text.truth r.timerRunning
    ++ ", config: RepositoryConfig \x7b refresh_interval: " ++ Duration.text r.config.refreshInterval
    ++ ", error_retry_interval: " ++ Duration.text r.config.errorRetryInterval ++ " \x7d \x7d"

/-! ## What changes do to the sheets -/

@[simp] theorem get?_emit (r : Repository σ) (e : Event) (k : SheetId) :
    (r.emit e).get? k = r.get? k := rfl

/-- A change reaches the one sheet it is meant for. -/
@[simp] theorem get?_update (r : Repository σ) (id k : SheetId) (f : Sheet → Sheet) :
    (r.update id f).get? k = if id = k then (r.get? k).map f else r.get? k := by
  unfold update
  cases h : r.get? id with
  | none =>
    by_cases hk : id = k
    · subst hk; simp [h]
    · simp [hk]
  | some sheet =>
    show (r.sheets.insert id (f sheet)).get? k = _
    rw [Table.get?_insert]
    by_cases hk : id = k
    · subst hk; simp [h]
    · simp [hk, get?]

@[simp] theorem parser_update (r : Repository σ) (id : SheetId) (f : Sheet → Sheet) :
    (r.update id f).parser = r.parser := by
  unfold update
  split <;> rfl

@[simp] theorem source_update (r : Repository σ) (id : SheetId) (f : Sheet → Sheet) :
    (r.update id f).source = r.source := by
  unfold update
  split <;> rfl

@[simp] theorem board_update (r : Repository σ) (id : SheetId) (f : Sheet → Sheet) :
    (r.update id f).board = r.board := by
  unfold update
  split <;> rfl

@[simp] theorem timerEnabled_update (r : Repository σ) (id : SheetId) (f : Sheet → Sheet) :
    (r.update id f).timerEnabled = r.timerEnabled := by
  unfold update
  split <;> rfl

/-- A new sheet comes under the next identifier, and the others stay. -/
@[simp] theorem get?_insert (r : Repository σ) (sheet : Sheet) (k : SheetId) :
    (r.insert sheet).2.get? k = if ⟨r.nextIndex⟩ = k then some sheet else r.get? k :=
  Table.get?_insert ..

end Repository

end Stylebook
