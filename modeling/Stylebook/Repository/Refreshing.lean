import Stylebook.Repository.Polling

/-!
# Refreshing sheets

A refresh asks for the revision of the source first, and reads the source only if the refresh is forced or
the revision is not the one that is loaded. A source without a revision is always read. A text that cannot
be understood keeps the old content, but its revision is recorded, so that it is not read again before it
changes; a source that cannot be read is left out of polls for a while.

A poll refreshes the active sheets that are polled, oldest first.
-/

set_option autoImplicit false

namespace Stylebook

/-- How a refresh that had to read the source ended. -/
def Outcome.ofFetch : Except StyleError Content → Outcome
  | .ok _ => .refreshed
  | .error e => .failed e.describe

/-- The sheet after its source was read at the time `now`, where `revision` is the revision that the source
had just before. -/
def Sheet.afterFetch (revision : Option Revision) (now : Nat) (fetched : Except StyleError Content)
    (s : Sheet) : Sheet :=
  match fetched with
  | .ok content =>
    { s with content := content }.mapRefresh fun state =>
      { state with lastModified := revision, failedAt := none }
  | .error (.parseFailed _ _) =>
    s.mapRefresh fun state => { state with lastModified := revision, failedAt := none }
  | .error _ => s.mapRefresh fun state => { state with failedAt := some now }

/-- The revision of the content that is loaded, if it is known. -/
def Sheet.loadedRevision? (s : Sheet) : Option Revision :=
  s.refresh.bind (·.lastModified)

/-- Whether polls leave the sheet out, because its source could not be read less than `retry` milliseconds
ago. -/
def Sheet.isBackingOff (s : Sheet) (retry now : Nat) : Bool :=
  match s.refresh.bind (·.failedAt) with
  | some failed => now - failed < retry
  | none => false

namespace Repository

variable {σ : Type} [Source σ]

/-- Reads and understands what is at a location. -/
def fetch (r : Repository σ) (location : Location) : Except StyleError Content × Repository σ :=
  match Source.isPresent r.source location with
  | (false, source) => (.error (.notFound location.text), { r with source := source })
  | (true, source) =>
    match Source.read source location with
    | (.error cause, source) => (.error (.readFailed location cause), { r with source := source })
    | (.ok text, source) =>
      (match r.parser text with
        | .ok content => .ok content
        | .error cause => .error (.parseFailed location cause),
        { r with source := source, parses := r.parses + 1 })

@[simp] theorem sheets_fetch (r : Repository σ) (location : Location) :
    (r.fetch location).2.sheets = r.sheets := by
  unfold fetch
  split
  · rfl
  · split <;> rfl

@[simp] theorem parser_fetch (r : Repository σ) (location : Location) :
    (r.fetch location).2.parser = r.parser := by
  unfold fetch
  split
  · rfl
  · split <;> rfl

def refresh (r : Repository σ) (id : SheetId) (force : Bool) : Outcome × Repository σ :=
  match r.get? id with
  | none => (.failed "unknown stylesheet", r)
  | some sheet =>
    let location := sheet.location
    let (revision, source) := Source.modified r.source location
    let r := { r with source := source }
    if !force && revision.isSome && revision == sheet.loadedRevision? then
      (.unchanged, r.emit (.didRefresh id location .unchanged))
    else
      let (fetched, r) := r.fetch location
      let outcome := Outcome.ofFetch fetched
      (outcome, (r.update id (·.afterFetch revision r.now fetched)).emit (.didRefresh id location outcome))

/-- Refreshes one refreshable sheet. -/
def reload (r : Repository σ) (id : SheetId) (force : Bool) :
    Except StyleError Outcome × Repository σ :=
  match r.get? id with
  | none => (.error .unknownSheet, r)
  | some sheet =>
    if sheet.isRefreshable then
      let (outcome, r) := (r.emit (.willRefresh (some id))).refresh id force
      (.ok outcome, r)
    else (.error (.notRefreshable sheet.location), r)

theorem reload_of_refreshable {r : Repository σ} {id : SheetId} {sheet : Sheet} (loaded : r.get? id = some sheet)
    (refreshable : sheet.isRefreshable) (force : Bool) :
    r.reload id force = (.ok ((r.emit (.willRefresh (some id))).refresh id force).1,
      ((r.emit (.willRefresh (some id))).refresh id force).2) := by
  unfold reload
  rw [loaded]
  dsimp only
  rw [if_pos refreshable]

/-- The sheets that a poll refreshes; a forced poll leaves out none for having failed. -/
def polled (r : Repository σ) (force : Bool) : List SheetId :=
  (r.entries.filter fun e =>
    e.2.active && e.2.isPolling
      && (force || !e.2.isBackingOff r.config.errorRetryInterval r.now)).map (·.1)

/-- Refreshes every active sheet that is polled. -/
def reloadAll (r : Repository σ) (force : Bool) : Repository σ :=
  let r := r.emit (.willRefresh none)
  (r.polled force).foldl (fun r id => (r.refresh id force).2) r

/-! ## Requests -/

/-- Does what a request asks for. A sheet that is no longer loaded is not refreshed. -/
def handle (r : Repository σ) : Request → Repository σ
  | .poll => r.reloadAll false
  | .modified id => (r.reload id true).2

/-- Handles every request that is queued, and answers how many there were. -/
def processPending (r : Repository σ) : Nat × Repository σ :=
  (r.queue.length, r.queue.foldl handle { r with queue := [] })

/-- Handles the oldest request, if there is one. -/
def processNext (r : Repository σ) : Option Request × Repository σ :=
  match r.queue with
  | [] => (none, r)
  | request :: rest => (some request, { r with queue := rest }.handle request)

/-- Waits for a request, but at most so many milliseconds, and handles it. -/
def awaitRequest (r : Repository σ) (limit : Nat) : Option Request × Repository σ :=
  if r.queue.isEmpty then (r.advance (r.untilNextPoll limit)).processNext else r.processNext

/-- Reports that what is at a location has changed; answers whether anyone watches it. -/
def report (r : Repository σ) (location : Location) : Bool × Repository σ :=
  let watching := match r.board with
    | some board => board.watching location
    | none => []
  (!watching.isEmpty, { r with queue := r.queue ++ watching.map .modified })

end Repository

end Stylebook
