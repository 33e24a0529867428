import Stylebook.Proofs.Repository.Run

/-!
# What refreshes leave alone

A refresh may change the content of a sheet, its revision and the time of its last failure, and of the
repository the source, the number of parses and what was passed on to receivers. Everything else is the
*outline* of the repository, and the statements here say of one refresh after another that it keeps the
outline: refreshing a sheet, reloading it, polling, and handling whatever is queued.

An invariant that speaks of the outline alone is then kept by all of them without another look at how a
refresh works.
-/

set_option autoImplicit false

namespace Stylebook

/-- The sheet without what a refresh may change. -/
def Sheet.outline (s : Sheet) : Sheet :=
  { s with content := .empty }.mapRefresh fun state => { state with lastModified := none, failedAt := none }

/-- What a refresh leaves alone. -/
structure Outline where
  sheet? : SheetId → Option Sheet
  order : List SheetId
  nextIndex : Nat
  parser : String → Except ParseError Content
  board : Option WatchBoard
  config : RefreshConfig
  timerEnabled : Bool
  timer : Option PollTimer
  hasClock : Bool
  now : Nat

/-- Reading a source changes a sheet within its outline. -/
@[simp] theorem Sheet.outline_afterFetch (revision : Option Revision) (now : Nat)
    (fetched : Except StyleError Content) (s : Sheet) :
    (s.afterFetch revision now fetched).outline = s.outline := by
  unfold afterFetch
  split <;> cases h : s.refresh <;> simp [outline, mapRefresh, h]

namespace Repository

variable {σ : Type}

/-- The loaded sheets, as far as `f` tells of them. -/
def view {α : Type} (r : Repository σ) (f : Sheet → α) : SheetId → Option α :=
  fun id => (r.get? id).map f

def outline (r : Repository σ) : Outline where
  sheet? := r.view Sheet.outline
  order := r.order
  nextIndex := r.nextIndex
  parser := r.parser
  board := r.board
  config := r.config
  timerEnabled := r.timerEnabled
  timer := r.timer
  hasClock := r.hasClock
  now := r.now

/-! ## Views of the sheets -/

section

variable {α : Type} {f : Sheet → α} {r r' : Repository σ}

theorem get?_of_view (same : r'.view f = r.view f) {id : SheetId} {s : Sheet} (h : r'.get? id = some s) :
    ∃ t, r.get? id = some t ∧ f t = f s := by
  have hid : (r'.get? id).map f = (r.get? id).map f := congrFun same id
  rw [h] at hid
  exact Option.map_eq_some_iff.mp hid.symm

theorem isSome_of_view (same : r'.view f = r.view f) (id : SheetId) :
    (r'.get? id).isSome = (r.get? id).isSome := by
  have hid : (r'.get? id).map f = (r.get? id).map f := congrFun same id
  rw [← Option.isSome_map (f := f), hid, Option.isSome_map]

theorem view_update (r : Repository σ) (id : SheetId) {g : Sheet → Sheet} (same : ∀ s, f (g s) = f s) :
    (r.update id g).view f = r.view f := by
  funext k
  unfold view
  rw [get?_update]
  split
  · cases r.get? k <;> simp [same]
  · rfl

/-- A view is kept with every view that tells more. -/
theorem view_of_view {β : Type} {g : Sheet → β} (more : ∀ s t, f s = f t → g s = g t)
    (same : r'.view f = r.view f) : r'.view g = r.view g := by
  funext id
  unfold view
  cases hs : r'.get? id with
  | none =>
    cases ht : r.get? id with
    | none => rfl
    | some t =>
      obtain ⟨s, hs', -⟩ := get?_of_view same.symm ht
      exact absurd (hs.symm.trans hs') (by simp)
  | some s =>
    obtain ⟨t, ht, told⟩ := get?_of_view same hs
    rw [ht, Option.map_some, Option.map_some, more t s told]

/-- What is told of the sheets within their outlines is kept with the outline. -/
theorem view_of_outline (within : ∀ s : Sheet, f s.outline = f s) (same : r'.outline = r.outline) :
    r'.view f = r.view f := by
  have sheets : r'.view Sheet.outline = r.view Sheet.outline := congrArg Outline.sheet? same
  refine view_of_view (fun s t told => ?_) sheets
  rw [← within s, told, within t]

end

theorem order_of_outline {r r' : Repository σ} (same : r'.outline = r.outline) : r'.order = r.order :=
  congrArg Outline.order same

theorem parser_of_outline {r r' : Repository σ} (same : r'.outline = r.outline) : r'.parser = r.parser :=
  congrArg Outline.parser same

theorem now_of_outline {r r' : Repository σ} (same : r'.outline = r.outline) : r'.now = r.now :=
  congrArg Outline.now same

theorem isSome_of_outline {r r' : Repository σ} (same : r'.outline = r.outline) (id : SheetId) :
    (r'.get? id).isSome = (r.get? id).isSome :=
  isSome_of_view (congrArg Outline.sheet? same) id

/-! ## Refreshes -/

@[simp] theorem outline_emit (r : Repository σ) (e : Event) : (r.emit e).outline = r.outline := rfl

/-- A change of one sheet keeps the outline if it keeps the outline of the sheet. -/
theorem outline_update (r : Repository σ) (id : SheetId) {f : Sheet → Sheet}
    (same : ∀ s, (f s).outline = s.outline) : (r.update id f).outline = r.outline := by
  unfold outline
  rw [view_update r id same]
  unfold update
  cases r.get? id <;> rfl

variable [Source σ]

@[simp] theorem outline_fetch (r : Repository σ) (location : Location) :
    (r.fetch location).2.outline = r.outline := by
  unfold fetch
  split
  · rfl
  · split <;> rfl

@[simp] theorem outline_refresh (r : Repository σ) (id : SheetId) (force : Bool) :
    (r.refresh id force).2.outline = r.outline := by
  unfold refresh
  cases r.get? id with
  | none => rfl
  | some sheet =>
    dsimp only
    split
    · rfl
    · -- what a fetch answers shows in the content and the recorded revision alone
      rw [outline_emit, outline_update _ _ fun s => Sheet.outline_afterFetch .., outline_fetch]
      rfl

@[simp] theorem outline_reload (r : Repository σ) (id : SheetId) (force : Bool) :
    (r.reload id force).2.outline = r.outline := by
  unfold reload
  cases r.get? id with
  | none => rfl
  | some sheet =>
    dsimp only
    split
    · exact outline_refresh ..
    · rfl

/-- A row of refreshes keeps the outline, by induction on the row. -/
theorem outline_foldl_refresh (ids : List SheetId) (r : Repository σ) (force : Bool) :
    (ids.foldl (fun r id => (r.refresh id force).2) r).outline = r.outline := by
  induction ids generalizing r with
  | nil => rfl
  | cons id rest ih => rw [List.foldl_cons, ih, outline_refresh]

@[simp] theorem outline_reloadAll (r : Repository σ) (force : Bool) :
    (r.reloadAll force).outline = r.outline :=
  outline_foldl_refresh ..

@[simp] theorem outline_handle (r : Repository σ) (request : Request) :
    (r.handle request).outline = r.outline := by
  cases request with
  | poll => exact outline_reloadAll ..
  | modified id => exact outline_reload ..

theorem outline_foldl_handle (requests : List Request) (r : Repository σ) :
    (requests.foldl handle r).outline = r.outline := by
  induction requests generalizing r with
  | nil => rfl
  | cons request rest ih => rw [List.foldl_cons, ih, outline_handle]

@[simp] theorem outline_processPending (r : Repository σ) : r.processPending.2.outline = r.outline :=
  outline_foldl_handle ..

@[simp] theorem outline_processNext (r : Repository σ) : r.processNext.2.outline = r.outline := by
  unfold processNext
  cases r.queue with
  | nil => rfl
  | cons request rest => exact outline_handle ..

end Repository

end Stylebook
