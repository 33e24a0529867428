import Stylebook.Repository.Refreshing

/-!
# Loading sheets

A location that is loaded already is not loaded again: the operations then answer the identifier of the
sheet that is there and change nothing. A sheet that is to be refreshed is stored even if its first
refresh fails, as long as there is something at its location.
-/

set_option autoImplicit false

namespace Stylebook.Repository

variable {σ : Type} [Source σ]

def load (r : Repository σ) (location : Location) (name group : Option String) :
    Except StyleError SheetId × Repository σ :=
  match r.idAt? location with
  | some id => (.ok id, r)
  | none =>
    match r.fetch location with
    | (.error e, r) => (.error e, r)
    | (.ok content, r) =>
      let (id, r) := r.insert (Sheet.build location content name group)
      (.ok id, r)

/-- Loads a sheet that comes with the application. -/
def loadFromBundle (r : Repository σ) (path : String) (name group : Option String) :
    Except StyleError SheetId × Repository σ :=
  match Source.resolveBundle r.source path with
  | (none, source) => (.error (.notFound path), { r with source := source })
  | (some location, source) => { r with source := source }.load location name group

/-- Starts to watch the source of a sheet, or to poll it if it cannot be watched. -/
def startMonitoring (r : Repository σ) (id : SheetId) : Repository σ :=
  match r.get? id with
  | none => r
  | some sheet =>
    match r.board.bind (·.watch? sheet.location id) with
    | some (watch, board) =>
      { r with board := some board }.update id fun s => s.mapRefresh fun state =>
        { state with monitoring := .events, watch := some watch }
    | none =>
      (r.update id fun s => s.mapRefresh fun state =>
        { state with monitoring := .polling, watch := none }).enableTimer

/-- Loads a sheet that is refreshed when its source changes. -/
def loadRefreshable (r : Repository σ) (location : Location) (name group : Option String) :
    Except StyleError SheetId × Repository σ :=
  match r.idAt? location with
  | some id => (.ok id, r)
  | none =>
    match Source.isPresent r.source location with
    | (false, source) => (.error (.notFound location.text), { r with source := source })
    | (true, source) =>
      let (id, r) := { r with source := source }.insert
        (Sheet.build location .empty name group).refreshable
      match r.reload id true with
      | (.error e, r) => (.error e, r)
      | (.ok _, r) => (.ok id, r.startMonitoring id)

/-- Adds a sheet that was built elsewhere. -/
def register (r : Repository σ) (sheet : Sheet) : SheetId × Repository σ :=
  match r.idAt? sheet.location with
  | some id => (id, r)
  | none => r.insert sheet

/-! ## What loading can do -/

/-- A load finds the sheet, or fails to fetch it, or stores it. -/
theorem load_cases (r : Repository σ) (location : Location) (name group : Option String) :
    (∃ id, r.idAt? location = some id ∧ r.load location name group = (.ok id, r)) ∨
    (r.idAt? location = none ∧ ∃ e, (r.fetch location).1 = .error e ∧
      r.load location name group = (.error e, (r.fetch location).2)) ∨
    (r.idAt? location = none ∧ ∃ content, (r.fetch location).1 = .ok content ∧
      r.load location name group = (.ok ⟨(r.fetch location).2.nextIndex⟩,
        ((r.fetch location).2.insert (Sheet.build location content name group)).2)) := by
  unfold load
  cases r.idAt? location with
  | some id => exact .inl ⟨id, rfl, rfl⟩
  | none =>
    obtain ⟨fetched, r'⟩ := r.fetch location
    cases fetched with
    | error e => exact .inr (.inl ⟨rfl, e, rfl, rfl⟩)
    | ok content => exact .inr (.inr ⟨rfl, content, rfl, rfl⟩)

/-- The repository after the source was asked whether there is something at a location. -/
def asked (r : Repository σ) (location : Location) : Repository σ :=
  { r with source := (Source.isPresent r.source location).2 }

/-- A refreshable load finds the sheet, or finds nothing at the location, or stores a sheet, refreshes it and
has it monitored. Its first refresh may fail, but the sheet is there to be refreshed. -/
theorem loadRefreshable_cases (r : Repository σ) (location : Location) (name group : Option String) :
    (∃ id, r.idAt? location = some id ∧ r.loadRefreshable location name group = (.ok id, r)) ∨
    (r.idAt? location = none ∧ (Source.isPresent r.source location).1 = false ∧
      r.loadRefreshable location name group = (.error (.notFound location.text), r.asked location)) ∨
    (r.idAt? location = none ∧ (Source.isPresent r.source location).1 = true ∧
      ∃ sheet, sheet = (Sheet.build location .empty name group).refreshable ∧
        r.loadRefreshable location name group = (.ok ⟨r.nextIndex⟩,
          (((r.asked location).insert sheet).2.reload ⟨r.nextIndex⟩ true).2.startMonitoring ⟨r.nextIndex⟩)) := by
  unfold loadRefreshable asked
  cases r.idAt? location with
  | some id => exact .inl ⟨id, rfl, rfl⟩
  | none =>
    obtain ⟨present, source⟩ := Source.isPresent r.source location
    cases present with
    | false => exact .inr (.inl ⟨rfl, rfl, rfl⟩)
    | true =>
      refine .inr (.inr ⟨rfl, rfl, _, rfl, ?_⟩)
      have inserted := get?_insert { r with source := source }
        (Sheet.build location .empty name group).refreshable ⟨r.nextIndex⟩
      rw [if_pos rfl] at inserted
      have reloaded := reload_of_refreshable inserted rfl true
      dsimp only
      split <;> rename_i heq <;> cases heq.symm.trans reloaded
      rw [reloaded]
      rfl

end Stylebook.Repository
