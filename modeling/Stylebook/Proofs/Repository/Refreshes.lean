import Stylebook.Proofs.Repository.Outline

/-!
# What a refresh does

A refresh has two ends. Either the source bears the recorded revision and nothing more is asked of it, or the
text is fetched and the sheet takes what the fetch answered. `refresh_cases` says so once; everything else about
refreshes is derived from it.

`Refreshes` is what the outcome of a refresh stands for: a sheet that is reported as unchanged was not read, one
that is reported as refreshed has the content of a text that was just read, and one that is reported as failed
has the content that it had.
-/

set_option autoImplicit false

namespace Stylebook

theorem Outcome.ofFetch_eq_refreshed {fetched : Except StyleError Content} :
    Outcome.ofFetch fetched = .refreshed ↔ ∃ content, fetched = .ok content := by
  cases fetched <;> simp [ofFetch]

theorem Outcome.ofFetch_ne_unchanged (fetched : Except StyleError Content) :
    Outcome.ofFetch fetched ≠ .unchanged := by
  cases fetched <;> simp [ofFetch]

/-- A sheet takes the content that was fetched. -/
theorem Sheet.content_afterFetch_ok (revision : Option Revision) (now : Nat) (content : Content) (s : Sheet) :
    (s.afterFetch revision now (.ok content)).content = content := rfl

/-- A sheet that could not be fetched keeps its content. -/
theorem Sheet.content_afterFetch_error (revision : Option Revision) (now : Nat) (e : StyleError) (s : Sheet) :
    (s.afterFetch revision now (.error e)).content = s.content := by
  unfold afterFetch
  split
  · rename_i content heq
    cases heq
  · rfl
  · rfl

namespace Repository

variable {σ : Type} {r : Repository σ} {id : SheetId} {s : Sheet}

@[simp] theorem queue_update (r : Repository σ) (id : SheetId) (f : Sheet → Sheet) :
    (r.update id f).queue = r.queue := by
  unfold update
  split <;> rfl

@[simp] theorem notifier_update (r : Repository σ) (id : SheetId) (f : Sheet → Sheet) :
    (r.update id f).notifier = r.notifier := by
  unfold update
  split <;> rfl

variable [Source σ]

/-! ## Fetching -/

/-- The source has a text at a location, and gives it when it is asked for it. -/
def Gives (source : σ) (location : Location) (text : String) : Prop :=
  (Source.isPresent source location).1 = true ∧
    (Source.read (Source.isPresent source location).2 location).1 = .ok text

/-- Content is fetched where the source gives a text and the parser understands it, and only there. -/
theorem fetch_eq_ok {location : Location} {content : Content} :
    (r.fetch location).1 = .ok content ↔
      ∃ text, Gives r.source location text ∧ r.parser text = .ok content := by
  unfold fetch Gives
  cases present : Source.isPresent r.source location with
  | mk there asked =>
    cases there with
    | false => simp
    | true =>
      cases given : Source.read asked location with
      | mk answer read =>
        cases answer with
        | error e => simp [given]
        | ok text =>
          cases understood : r.parser text <;> simp [given, understood]

@[simp] theorem queue_fetch (r : Repository σ) (location : Location) :
    (r.fetch location).2.queue = r.queue := by
  unfold fetch
  split
  · rfl
  · split <;> rfl

@[simp] theorem notifier_fetch (r : Repository σ) (location : Location) :
    (r.fetch location).2.notifier = r.notifier := by
  unfold fetch
  split
  · rfl
  · split <;> rfl

/-! ## Refreshing -/

/-- The repository after the source was asked for the revision of what is at a location. -/
def dated (r : Repository σ) (location : Location) : Repository σ :=
  { r with source := (Source.modified r.source location).2 }

/-- The source bears the revision that is recorded for the sheet. -/
def Bears (r : Repository σ) (s : Sheet) : Prop :=
  (Source.modified r.source s.location).1.isSome ∧
    (Source.modified r.source s.location).1 = s.loadedRevision?

/-- The repository after a sheet was read. -/
def reread (r : Repository σ) (id : SheetId) (s : Sheet) : Repository σ :=
  let fetched := (r.dated s.location).fetch s.location
  fetched.2.update id (·.afterFetch (Source.modified r.source s.location).1 fetched.2.now fetched.1)

/-- A refresh that is not forced leaves a sheet alone whose source bears the recorded revision; any other
refresh reads the sheet. -/
theorem refresh_cases (loaded : r.get? id = some s) (force : Bool) :
    (force = false ∧ r.Bears s ∧ r.refresh id force =
      (.unchanged, (r.dated s.location).emit (.didRefresh id s.location .unchanged))) ∨
    (¬ (force = false ∧ r.Bears s) ∧ ∃ outcome,
      outcome = Outcome.ofFetch ((r.dated s.location).fetch s.location).1 ∧
        r.refresh id force = (outcome, (r.reread id s).emit (.didRefresh id s.location outcome))) := by
  unfold refresh Bears
  rw [loaded]
  dsimp only
  split
  · rename_i same
    simp only [Bool.and_eq_true, Bool.not_eq_eq_eq_not, Bool.not_true, beq_iff_eq] at same
    obtain ⟨⟨unforced, known⟩, same⟩ := same
    exact .inl ⟨unforced, ⟨known, same⟩, rfl⟩
  · rename_i other
    refine .inr ⟨fun same => other ?_, _, rfl, rfl⟩
    obtain ⟨unforced, known, same⟩ := same
    rw [unforced, known, same]
    simp

theorem get?_reread (loaded : r.get? id = some s) (k : SheetId) :
    (r.reread id s).get? k = if id = k then
      some (s.afterFetch (Source.modified r.source s.location).1 ((r.dated s.location).fetch s.location).2.now
        ((r.dated s.location).fetch s.location).1)
      else r.get? k := by
  have kept : ((r.dated s.location).fetch s.location).2.get? k = r.get? k := by
    rw [get?, sheets_fetch]
    rfl
  unfold reread
  rw [get?_update, kept]
  split
  · rename_i same
    rw [← same, loaded, Option.map_some]
  · rfl

theorem queue_reread (r : Repository σ) (id : SheetId) (s : Sheet) : (r.reread id s).queue = r.queue := by
  unfold reread
  rw [queue_update, queue_fetch]
  rfl

theorem notifier_reread (r : Repository σ) (id : SheetId) (s : Sheet) :
    (r.reread id s).notifier = r.notifier := by
  unfold reread
  rw [notifier_update, notifier_fetch]
  rfl

/-- A refresh of a loaded sheet, with what its outcome stands for. -/
structure Refreshes (r : Repository σ) (force : Bool) (id : SheetId) (s : Sheet) (outcome : Outcome)
    (r' : Repository σ) : Prop where
  loaded : r.get? id = some s
  done : r.refresh id force = (outcome, r')
  /-- The source was asked for the revision, and for nothing else. -/
  unchanged : outcome = .unchanged → r'.source = (Source.modified r.source s.location).2 ∧ r'.sheets = r.sheets
  /-- The sheet has the content of the text that the source gave after it was asked for the revision. -/
  refreshed : outcome = .refreshed → ∃ text content s',
    Gives (Source.modified r.source s.location).2 s.location text ∧ r.parser text = .ok content ∧
      r'.get? id = some s' ∧ s'.content = content
  failed : ∀ reason, outcome = .failed reason → ∃ s', r'.get? id = some s' ∧ s'.content = s.content

theorem refreshes_refresh (loaded : r.get? id = some s) (force : Bool) :
    ∃ outcome r', r.Refreshes force id s outcome r' := by
  rcases refresh_cases loaded force with ⟨-, -, done⟩ | ⟨-, outcome, rfl, done⟩
  · exact ⟨_, _, loaded, done, fun _ => ⟨rfl, rfl⟩, nofun, nofun⟩
  · have read : ((r.reread id s).emit (.didRefresh id s.location
        (Outcome.ofFetch ((r.dated s.location).fetch s.location).1))).get? id = _ :=
      (get?_reread loaded id).trans (if_pos rfl)
    refine ⟨_, _, loaded, done, fun h => ?_, fun h => ?_, fun reason h => ?_⟩
    · exact absurd h (Outcome.ofFetch_ne_unchanged _)
    · obtain ⟨content, fetched⟩ := Outcome.ofFetch_eq_refreshed.mp h
      obtain ⟨text, given, understood⟩ := fetch_eq_ok.mp fetched
      refine ⟨text, content, _, given, understood, read, ?_⟩
      rw [fetched, Sheet.content_afterFetch_ok]
    · refine ⟨_, read, ?_⟩
      cases fetched : ((r.dated s.location).fetch s.location).1 with
      | ok content =>
        rw [fetched] at h
        cases h
      | error e => exact Sheet.content_afterFetch_error ..

/-- A refresh reaches the one sheet that it is meant for. -/
theorem get?_refresh_of_ne {k : SheetId} (other : id ≠ k) (force : Bool) :
    (r.refresh id force).2.get? k = r.get? k := by
  cases loaded : r.get? id with
  | none =>
    unfold refresh
    rw [loaded]
  | some s =>
    rcases refresh_cases loaded force with ⟨-, -, done⟩ | ⟨-, outcome, -, done⟩ <;> rw [done, get?_emit]
    · rfl
    · rw [get?_reread loaded, if_neg other]

@[simp] theorem queue_refresh (r : Repository σ) (id : SheetId) (force : Bool) :
    (r.refresh id force).2.queue = r.queue := by
  cases loaded : r.get? id with
  | none =>
    unfold refresh
    rw [loaded]
  | some s =>
    rcases refresh_cases loaded force with ⟨-, -, done⟩ | ⟨-, outcome, -, done⟩ <;> rw [done]
    · rfl
    · exact queue_reread r id s

/-! ## Reloading -/

/-- A reload refreshes a sheet that is loaded and refreshable, and does nothing to any other. -/
theorem reload_cases (r : Repository σ) (id : SheetId) (force : Bool) :
    (∃ s, r.get? id = some s ∧ s.isRefreshable ∧
      r.reload id force = (.ok ((r.emit (.willRefresh (some id))).refresh id force).1,
        ((r.emit (.willRefresh (some id))).refresh id force).2)) ∨
    ((∀ s, r.get? id = some s → s.isRefreshable = false) ∧ ∃ e, r.reload id force = (.error e, r)) := by
  cases loaded : r.get? id with
  | none =>
    refine .inr ⟨nofun, .unknownSheet, ?_⟩
    unfold reload
    rw [loaded]
  | some s =>
    cases refreshable : s.isRefreshable with
    | true => exact .inl ⟨s, rfl, refreshable, reload_of_refreshable loaded refreshable force⟩
    | false =>
      refine .inr ⟨fun t ht => by cases ht; exact refreshable, .notRefreshable s.location, ?_⟩
      unfold reload
      rw [loaded]
      dsimp only
      rw [refreshable]
      rfl

theorem get?_reload_of_ne {k : SheetId} (other : id ≠ k) (force : Bool) :
    (r.reload id force).2.get? k = r.get? k := by
  rcases r.reload_cases id force with ⟨s, -, -, done⟩ | ⟨-, e, done⟩ <;> rw [done]
  rw [get?_refresh_of_ne other]
  rfl

@[simp] theorem queue_reload (r : Repository σ) (id : SheetId) (force : Bool) :
    (r.reload id force).2.queue = r.queue := by
  rcases r.reload_cases id force with ⟨s, -, -, done⟩ | ⟨-, e, done⟩ <;> rw [done]
  exact queue_refresh ..

theorem queue_foldl_refresh (ids : List SheetId) (r : Repository σ) (force : Bool) :
    (ids.foldl (fun r id => (r.refresh id force).2) r).queue = r.queue := by
  induction ids generalizing r with
  | nil => rfl
  | cons id rest ih => rw [List.foldl_cons, ih, queue_refresh]

/-- What a request asks for queues no further request. -/
@[simp] theorem queue_handle (r : Repository σ) (request : Request) : (r.handle request).queue = r.queue := by
  cases request with
  | poll => exact queue_foldl_refresh ..
  | modified id => exact queue_reload r id true

/-! ## Waiting -/

/-- The repository when a wait for a request is over. -/
def waiting (r : Repository σ) (limit : Nat) : Repository σ :=
  if r.queue.isEmpty then r.advance (r.untilNextPoll limit) else r

theorem awaitRequest_eq (r : Repository σ) (limit : Nat) :
    r.awaitRequest limit = (r.waiting limit).processNext := by
  unfold awaitRequest waiting
  split <;> rfl

end Repository

end Stylebook
