import Stylebook.Repository.Polling

/-!
# Unloading sheets

A sheet that is unloaded is no longer watched, and the polls end with the last sheet that is polled.
-/

set_option autoImplicit false

namespace Stylebook

/-- The watch that is kept on the source of the sheet. -/
def Sheet.watch? (s : Sheet) : Option Nat :=
  s.refresh.bind (·.watch)

def Sheet.unwatched (s : Sheet) : Sheet :=
  s.mapRefresh fun state => { state with watch := none }

namespace Repository

variable {σ : Type}

/-- Ends the watch that is kept for a sheet. -/
def release (r : Repository σ) (sheet : Sheet) : Repository σ :=
  match sheet.watch?, r.board with
  | some watch, some board => { r with board := some (board.release watch) }
  | _, _ => r

/-- Takes a sheet out, if it is there, and ends the watch that is kept for it. -/
def discard (r : Repository σ) (id : SheetId) : Repository σ :=
  match r.get? id with
  | none => r
  | some sheet => { r with sheets := r.sheets.erase id }.release sheet

/-- Takes out every sheet that is left, whether it is in the order or not. -/
def clear (r : Repository σ) : Repository σ :=
  { r.sheets.entries.foldl (fun r e => r.release e.2) r with sheets := .empty }

def unload (r : Repository σ) (id : SheetId) : Except StyleError Sheet × Repository σ :=
  match r.get? id with
  | none => (.error .unknownSheet, r)
  | some sheet =>
    (.ok sheet.unwatched,
      ({ r.discard id with order := r.order.filter (· ≠ id) }.emit .invalidateAll).disableIdleTimer)

def unloadAll (r : Repository σ) : Repository σ :=
  ({ (r.order.foldl discard r).clear with order := [] }.emit .invalidateAll).disableIdleTimer

/-! ## What unloading does to the sheets -/

@[simp] theorem sheets_release (r : Repository σ) (sheet : Sheet) : (r.release sheet).sheets = r.sheets := by
  unfold release
  split <;> rfl

@[simp] theorem timerEnabled_release (r : Repository σ) (sheet : Sheet) :
    (r.release sheet).timerEnabled = r.timerEnabled := by
  unfold release
  split <;> rfl

@[simp] theorem timerEnabled_discard (r : Repository σ) (id : SheetId) :
    (r.discard id).timerEnabled = r.timerEnabled := by
  unfold discard
  split
  · rfl
  · exact timerEnabled_release ..

/-- A sheet that is taken out is gone, and the others stay. -/
@[simp] theorem get?_discard (r : Repository σ) (id k : SheetId) :
    (r.discard id).get? k = if id = k then none else r.get? k := by
  unfold discard
  cases h : r.get? id with
  | none =>
    by_cases hk : id = k
    · subst hk; simp [h]
    · simp [hk]
  | some sheet => simp [get?]

theorem get?_disableIdleTimer (r : Repository σ) (k : SheetId) : r.disableIdleTimer.get? k = r.get? k := by
  obtain ⟨_, _, h⟩ := r.disableIdleTimer_eq
  rw [h]
  rfl

@[simp] theorem get?_unload (r : Repository σ) (id k : SheetId) :
    (r.unload id).2.get? k = if id = k then none else r.get? k := by
  unfold unload
  cases loaded : r.get? id with
  | none =>
    by_cases hk : id = k
    · subst hk; simp [loaded]
    · simp [hk]
  | some sheet => exact (get?_disableIdleTimer ..).trans (get?_discard r id k)

@[simp] theorem get?_unloadAll (r : Repository σ) (k : SheetId) : r.unloadAll.get? k = none :=
  get?_disableIdleTimer ..

end Repository

end Stylebook
