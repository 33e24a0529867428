import Stylebook.Proofs.Repository.Index
import Stylebook.Proofs.Repository.Refreshes

/-!
# What observers are told

Each operation passes on a row of events that is fixed by what it did. `Announces` says which row: a sheet that
comes or goes or changes its flag makes everything out of date; a refresh is announced before and reported
afterwards, with the outcome that it had; a poll is announced once and followed by one report for each sheet that
is due, oldest first; and handling what is queued passes on the events of one request after another. Every other
operation is silent.

Events reach an observer through the notifier alone, so it is enough to know which row of events the notifier was
given: `Tells` says it of one operation, and is composed as operations are.
-/

set_option autoImplicit false

namespace Stylebook

/-! ## Observers and rows of events -/

namespace Notifier

variable {n : Notifier} {i : Nat} {log : List Event}

@[simp] theorem isSubscribed_notify (n : Notifier) (e : Event) (i : Nat) :
    (n.notify e).isSubscribed i = n.isSubscribed i := by
  simp only [isSubscribed, notify, List.getElem?_map]
  cases n.observers[i]? with
  | none => rfl
  | some o =>
    simp only [Option.map_some, Option.any_some, Observer.receive]
    split <;> rfl

theorem log?_notify (e : Event) (heard : n.log? i = some log) :
    (n.notify e).log? i = some (if n.isSubscribed i then log ++ [e] else log) := by
  obtain ⟨o, found, rfl⟩ := Option.map_eq_some_iff.mp heard
  have subscribed : n.isSubscribed i = o.subscribed := by simp [isSubscribed, found]
  rw [subscribed]
  simp only [log?, notify, List.getElem?_map, found, Option.map_some, Observer.receive]
  split <;> rfl

/-- A subscribed observer gets a row of events in order, by induction on the row; any other gets none. -/
theorem log?_foldl_notify (events : List Event) (heard : n.log? i = some log) :
    (events.foldl notify n).log? i = some (if n.isSubscribed i then log ++ events else log) := by
  induction events generalizing n log with
  | nil => simp [heard]
  | cons e rest ih =>
    rw [List.foldl_cons, ih (log?_notify e heard), isSubscribed_notify]
    split <;> simp

/-- Whoever comes or goes, the logs of the others stay. -/
theorem log?_subscribe (heard : n.log? i = some log) : n.subscribe.2.log? i = some log := by
  simp only [log?, subscribe] at heard ⊢
  obtain ⟨o, found, rfl⟩ := Option.map_eq_some_iff.mp heard
  rw [List.getElem?_append_left (List.getElem?_eq_some_iff.mp found).1, found]
  rfl

theorem log?_unsubscribe (k : Nat) (heard : n.log? i = some log) : (n.unsubscribe k).2.log? i = some log := by
  simp only [log?, unsubscribe, List.getElem?_modify] at heard ⊢
  obtain ⟨o, found, rfl⟩ := Option.map_eq_some_iff.mp heard
  rw [found]
  by_cases same : k = i <;> simp [same]

/-- Taking events out of a channel calls no observer. -/
theorem log?_drain (k : Nat) : (n.drain k).2.log? i = n.log? i := by
  unfold drain
  split <;> rfl

end Notifier

namespace Repository

variable {σ : Type} {r r' r'' : Repository σ} {events events' : List Event}

/-! ## Rows of events and operations -/

/-- From `r` to `r'`, the receivers are given a row of events. -/
def Tells (r : Repository σ) (events : List Event) (r' : Repository σ) : Prop :=
  r'.notifier = events.foldl Notifier.notify r.notifier

theorem Tells.silent (same : r'.notifier = r.notifier) : r.Tells [] r' :=
  same

theorem Tells.trans (first : r.Tells events r') (second : r'.Tells events' r'') :
    r.Tells (events ++ events') r'' := by
  unfold Tells at *
  rw [second, first, List.foldl_append]

theorem tells_emit (r : Repository σ) (e : Event) : r.Tells [e] (r.emit e) :=
  rfl

/-- From `r` to `r'`, the log of each subscribed observer grows by a row of events, and the others stay. -/
def Heard (r : Repository σ) (events : List Event) (r' : Repository σ) : Prop :=
  ∀ i log, r.notifier.log? i = some log →
    r'.notifier.log? i = some (if r.notifier.isSubscribed i then log ++ events else log)

theorem Tells.heard (tells : r.Tells events r') : r.Heard events r' := by
  intro i log heard
  rw [tells]
  exact Notifier.log?_foldl_notify events heard

theorem Heard.silent (same : ∀ i log, r.notifier.log? i = some log → r'.notifier.log? i = some log) :
    r.Heard [] r' := by
  intro i log heard
  rw [same i log heard]
  simp

/-- Something is done for one item of a row after another, and the rows of events are joined. -/
inductive Row {α : Type} (step : Repository σ → α → List Event → Repository σ → Prop) :
    Repository σ → List α → List Event → Repository σ → Prop where
  | nil (r : Repository σ) : Row step r [] [] r
  | cons {r r' r'' : Repository σ} {a : α} {rest : List α} {events events' : List Event}
      (first : step r a events r') (others : Row step r' rest events' r'') :
      Row step r (a :: rest) (events ++ events') r''

/-- By induction on the row, where each item leaves the repository fit for the next. -/
theorem row_foldl {α : Type} {step : Repository σ → α → List Event → Repository σ → Prop}
    {f : Repository σ → α → Repository σ} {Fit : Repository σ → Prop} (kept : ∀ r a, Fit r → Fit (f r a))
    (row : List α) (steps : ∀ r, Fit r → ∀ a ∈ row, ∃ events, step r a events (f r a) ∧ r.Tells events (f r a))
    (r : Repository σ) (fit : Fit r) :
    ∃ events, Row step r row events (row.foldl f r) ∧ r.Tells events (row.foldl f r) := by
  induction row generalizing r with
  | nil => exact ⟨[], .nil r, .silent rfl⟩
  | cons a rest ih =>
    obtain ⟨events, first, tells⟩ := steps r fit a List.mem_cons_self
    have others := fun r fit b hb => steps r fit b (List.mem_cons_of_mem a hb)
    obtain ⟨events', others, tells'⟩ := ih others (f r a) (kept r a fit)
    exact ⟨_, .cons first others, tells.trans tells'⟩

/-! ## Changes that receivers are not told of -/

@[simp] theorem notifier_disableIdleTimer (r : Repository σ) : r.disableIdleTimer.notifier = r.notifier := by
  obtain ⟨_, _, h⟩ := r.disableIdleTimer_eq
  rw [h]

@[simp] theorem notifier_advance (r : Repository σ) (milliseconds : Nat) :
    (r.advance milliseconds).notifier = r.notifier := by
  obtain ⟨_, _, h⟩ := r.advance_eq milliseconds
  rw [h]

theorem notifier_waiting (r : Repository σ) (limit : Nat) : (r.waiting limit).notifier = r.notifier := by
  unfold waiting
  split
  · exact notifier_advance ..
  · rfl

@[simp] theorem notifier_setInterval (r : Repository σ) (interval : Nat) :
    (r.setInterval interval).notifier = r.notifier := by
  obtain ⟨_, _, h⟩ := r.setInterval_eq interval
  rw [h]

@[simp] theorem notifier_startMonitoring (r : Repository σ) (id : SheetId) :
    (r.startMonitoring id).notifier = r.notifier := by
  unfold startMonitoring
  split
  · rfl
  · split
    · exact notifier_update ..
    · exact notifier_update ..

@[simp] theorem notifier_release (r : Repository σ) (sheet : Sheet) : (r.release sheet).notifier = r.notifier := by
  unfold release
  split <;> rfl

@[simp] theorem notifier_discard (r : Repository σ) (id : SheetId) : (r.discard id).notifier = r.notifier := by
  unfold discard
  split
  · rfl
  · exact notifier_release ..

theorem notifier_foldl_discard (ids : List SheetId) (r : Repository σ) :
    (ids.foldl discard r).notifier = r.notifier := by
  induction ids generalizing r with
  | nil => rfl
  | cons id rest ih => rw [List.foldl_cons, ih, notifier_discard]

theorem notifier_clear (r : Repository σ) : r.clear.notifier = r.notifier := by
  have released : ∀ (entries : List (SheetId × Sheet)) (r : Repository σ),
      (entries.foldl (fun r e => r.release e.2) r).notifier = r.notifier := by
    intro entries
    induction entries with
    | nil => exact fun _ => rfl
    | cons e rest ih => exact fun r => (ih _).trans (notifier_release ..)
  exact released ..

/-! ## Which events an operation passes on -/

section Spec

variable [Source σ]

/-- The sheets that a poll refreshes: oldest first and each once, those that are active and polled, but for those
that wait after a failure, unless the poll is forced. -/
structure Due (r : Repository σ) (force : Bool) (ids : List SheetId) : Prop where
  ordered : ids.Sublist r.order
  once : ids.Nodup
  mem : ∀ id, id ∈ ids ↔ ∃ s, r.get? id = some s ∧ s.active = true ∧ s.isPolling = true ∧
    (force = true ∨ s.isBackingOff r.config.errorRetryInterval r.now = false)

/-- A refresh is reported with the location of the sheet and the outcome that it had. -/
inductive Reports (force : Bool) (r : Repository σ) (id : SheetId) : List Event → Repository σ → Prop where
  | refreshes {s : Sheet} {outcome : Outcome} {r' : Repository σ} (refresh : r.Refreshes force id s outcome r') :
      Reports force r id [.didRefresh id s.location outcome] r'

/-- A poll is announced once, and then reports on each sheet that is due. -/
def Polls (r : Repository σ) (force : Bool) (events : List Event) (r' : Repository σ) : Prop :=
  ∃ ids reports, r.Due force ids ∧ Row (Reports force) (r.emit (.willRefresh none)) ids reports r' ∧
    events = .willRefresh none :: reports

/-- A reload that succeeds is announced and reported; any other is silent. -/
inductive Reloads (r : Repository σ) (id : SheetId) (force : Bool) : List Event → Repository σ → Prop where
  | refreshes {s : Sheet} {outcome : Outcome} {r' : Repository σ}
      (succeeds : r.reload id force = (.ok outcome, r'))
      (refresh : (r.emit (.willRefresh (some id))).Refreshes force id s outcome r') :
      Reloads r id force [.willRefresh (some id), .didRefresh id s.location outcome] r'
  | declines {e : StyleError} (fails : r.reload id force = (.error e, r)) : Reloads r id force [] r

/-- A request is a poll, or asks for a forced reload. -/
inductive Handles (r : Repository σ) : Request → List Event → Repository σ → Prop where
  | poll {events : List Event} {r' : Repository σ} (polls : r.Polls false events r') : Handles r .poll events r'
  | modified {id : SheetId} {events : List Event} {r' : Repository σ} (reloads : r.Reloads id true events r') :
      Handles r (.modified id) events r'

/-- A sheet that comes makes everything out of date. -/
def arrival (r r' : Repository σ) : List Event :=
  if r.size < r'.size then [.invalidateAll] else []

/-- A refreshable load that stores its sheet refreshes it at once; any other is silent. -/
def LoadsRefreshable (r : Repository σ) (location : Location) (name group : Option String)
    (events : List Event) (r' : Repository σ) : Prop :=
  let id : SheetId := ⟨r.nextIndex⟩
  let stored := ((r.asked location).insert (Sheet.build location .empty name group).refreshable).2
  if r.size < r'.size then
    ∃ s outcome refreshed, s.location = location ∧
      (stored.emit (.willRefresh (some id))).Refreshes true id s outcome refreshed ∧
      r' = refreshed.startMonitoring id ∧
      events = [.invalidateAll, .willRefresh (some id), .didRefresh id location outcome]
  else events = []

/-- The oldest request is handled, if there is one. -/
inductive HandlesNext (r : Repository σ) : List Event → Repository σ → Prop where
  | none (empty : r.queue = []) : HandlesNext r [] r
  | some {request : Request} {rest : List Request} {events : List Event} {r' : Repository σ}
      (oldest : r.queue = request :: rest) (handles : Handles { r with queue := rest } request events r') :
      HandlesNext r events r'

/-- Whether a sheet takes part in lookups, if it is loaded. -/
def flag? (r : Repository σ) (id : SheetId) : Option Bool :=
  (r.get? id).map (·.active)

/-- The row of events that an operation passes on. -/
def Announces (r : Repository σ) (op : Operation σ) (events : List Event) : Prop :=
  match op with
  | .load .. | .loadFromBundle .. | .register _ => events = r.arrival (r.perform op)
  | .loadRefreshable location name group => r.LoadsRefreshable location name group events (r.perform op)
  | .setActive id _ => events = if (r.perform op).flag? id = r.flag? id then [] else [.invalidateAll]
  | .unload id => events = if (r.unload id).1.isOk then [.invalidateAll] else []
  | .unloadAll => events = [.invalidateAll]
  | .reload id force => r.Reloads id force events (r.perform op)
  | .reloadAll force => r.Polls force events (r.perform op)
  | .processPending => Row Handles { r with queue := [] } r.queue events (r.perform op)
  | .awaitRequest limit => (r.waiting limit).HandlesNext events (r.perform op)
  | _ => events = []

end Spec

/-! ## Sheets that come and go -/

theorem tells_insert (same : r'.notifier = r.notifier) (order : r'.order = r.order) (sheet : Sheet) :
    r.Tells (r.arrival (r'.insert sheet).2) (r'.insert sheet).2 := by
  have grown : r.size < (r'.insert sheet).2.size := by
    unfold size
    rw [show (r'.insert sheet).2.order = r'.order ++ [⟨r'.nextIndex⟩] from rfl, order]
    simp
  unfold arrival
  rw [if_pos grown]
  exact (Tells.silent same).trans (tells_emit ..)

/-- Where no sheet is stored, nothing is passed on. -/
theorem tells_of_order (same : r'.notifier = r.notifier) (order : r'.order = r.order) :
    r.Tells (r.arrival r') r' := by
  unfold arrival
  rw [if_neg (by simp [size, order])]
  exact .silent same

theorem tells_register (r : Repository σ) (sheet : Sheet) :
    r.Tells (r.arrival (r.register sheet).2) (r.register sheet).2 := by
  unfold register
  split
  · exact tells_of_order rfl rfl
  · exact tells_insert rfl rfl sheet

theorem tells_setActive (r : Repository σ) (id : SheetId) (active : Bool) :
    r.Tells (if (r.setActive id active).2.flag? id = r.flag? id then [] else [.invalidateAll])
      (r.setActive id active).2 := by
  unfold setActive
  cases loaded : r.get? id with
  | none =>
    rw [if_pos rfl]
    exact .silent rfl
  | some sheet =>
    by_cases same : sheet.active = active
    · simp only [same, if_true]
      exact .silent rfl
    · have flipped : ¬ ((r.update id fun s => { s with active := active }).emit .invalidateAll).flag? id
          = r.flag? id := by
        simp [flag?, loaded, Ne.symm same]
      simp only [same, if_false]
      rw [if_neg flipped]
      exact (Tells.silent (notifier_update ..)).trans (tells_emit ..)

theorem tells_unload (r : Repository σ) (id : SheetId) :
    r.Tells (if (r.unload id).1.isOk then [.invalidateAll] else []) (r.unload id).2 := by
  unfold unload
  cases r.get? id with
  | none => exact .silent rfl
  | some sheet =>
    have discarded : r.Tells [] { r.discard id with order := r.order.filter (· ≠ id) } :=
      .silent (notifier_discard ..)
    exact (discarded.trans (tells_emit ..)).trans (.silent (notifier_disableIdleTimer _))

theorem tells_unloadAll (r : Repository σ) : r.Tells [.invalidateAll] r.unloadAll := by
  have cleared : r.Tells [] { (r.order.foldl discard r).clear with order := [] } :=
    .silent ((notifier_clear _).trans (notifier_foldl_discard ..))
  exact (cleared.trans (tells_emit ..)).trans (.silent (notifier_disableIdleTimer _))

/-! ## What a poll and a wait find -/

theorem map_fst_entries (r : Repository σ) :
    r.entries.map (·.1) = r.order.filter fun id => (r.get? id).isSome := by
  unfold entries
  induction r.order with
  | nil => rfl
  | cons id rest ih => cases h : r.get? id <;> simp [h, ih]

theorem Indexed.due_polled (h : r.Indexed) (force : Bool) : r.Due force (r.polled force) := by
  have ordered : (r.polled force).Sublist r.order := by
    have listed : (r.entries.map (·.1)).Sublist r.order := by
      rw [map_fst_entries]
      exact List.filter_sublist
    exact (List.filter_sublist.map _).trans listed
  refine ⟨ordered, h.nodup.sublist ordered, fun id => ?_⟩
  simp only [polled, List.mem_map, List.mem_filter, h.mem_entries, Bool.and_eq_true, Bool.or_eq_true,
    Bool.not_eq_eq_eq_not, Bool.not_true]
  constructor
  · rintro ⟨⟨k, s⟩, ⟨loaded, ⟨active, polling⟩, ready⟩, rfl⟩
    exact ⟨s, loaded, active, polling, ready⟩
  · rintro ⟨s, loaded, active, polling, ready⟩
    exact ⟨(id, s), ⟨loaded, ⟨active, polling⟩, ready⟩, rfl⟩

theorem Indexed.waiting (h : r.Indexed) (limit : Nat) : (r.waiting limit).Indexed := by
  unfold Repository.waiting
  split
  · exact h.of_places (places_advance ..)
  · exact h

variable [Source σ]

/-! ## Refreshes -/

theorem Refreshes.tells {force : Bool} {id : SheetId} {s : Sheet} {outcome : Outcome}
    (h : r.Refreshes force id s outcome r') : r.Tells [.didRefresh id s.location outcome] r' := by
  rcases refresh_cases h.loaded force with ⟨-, -, done⟩ | ⟨-, outcome, -, done⟩ <;> cases h.done.symm.trans done
  · exact tells_emit (r.dated s.location) _
  · have reread : r.Tells [] (r.reread id s) := .silent (notifier_reread r id s)
    exact reread.trans (tells_emit ..)

theorem reports_refresh {id : SheetId} (loaded : (r.get? id).isSome) (force : Bool) :
    ∃ events, Reports force r id events (r.refresh id force).2 ∧ r.Tells events (r.refresh id force).2 := by
  obtain ⟨s, hs⟩ := Option.isSome_iff_exists.mp loaded
  obtain ⟨outcome, r', refresh⟩ := refreshes_refresh hs force
  rw [refresh.done]
  exact ⟨_, .refreshes refresh, refresh.tells⟩

theorem Indexed.polls_reloadAll (h : r.Indexed) (force : Bool) :
    ∃ events, r.Polls force events (r.reloadAll force) ∧ r.Tells events (r.reloadAll force) := by
  have due := h.due_polled force
  -- a refresh loads and unloads nothing, so what was due when the poll began is loaded when its turn comes
  let Fit (r' : Repository σ) : Prop := ∀ id ∈ r.polled force, (r'.get? id).isSome
  have kept : ∀ (r' : Repository σ) id, Fit r' → Fit (r'.refresh id force).2 := by
    intro r' id fit k hk
    rw [isSome_of_outline (outline_refresh ..)]
    exact fit k hk
  have loaded : Fit (r.emit (.willRefresh none)) := by
    intro id hid
    rw [get?_emit, ← h.mem_order]
    exact due.ordered.subset hid
  obtain ⟨events, reports, tells⟩ :=
    row_foldl kept (r.polled force) (fun _ fit id hid => reports_refresh (fit id hid) force) _ loaded
  exact ⟨_, ⟨_, events, due, reports, rfl⟩, (tells_emit r _).trans tells⟩

theorem reloads_reload (r : Repository σ) (id : SheetId) (force : Bool) :
    ∃ events, r.Reloads id force events (r.reload id force).2 ∧ r.Tells events (r.reload id force).2 := by
  rcases r.reload_cases id force with ⟨s, loaded, -, done⟩ | ⟨-, e, done⟩
  · obtain ⟨outcome, r', refresh⟩ := refreshes_refresh (r := r.emit (.willRefresh (some id))) loaded force
    rw [refresh.done] at done
    rw [done]
    exact ⟨_, .refreshes done refresh, (tells_emit r _).trans refresh.tells⟩
  · rw [done]
    exact ⟨[], .declines done, .silent rfl⟩

/-! ## Requests -/

theorem Indexed.handles_handle (h : r.Indexed) (request : Request) :
    ∃ events, r.Handles request events (r.handle request) ∧ r.Tells events (r.handle request) := by
  cases request with
  | poll =>
    obtain ⟨events, polls, tells⟩ := h.polls_reloadAll false
    exact ⟨events, .poll polls, tells⟩
  | modified id =>
    obtain ⟨events, reloads, tells⟩ := reloads_reload r id true
    exact ⟨events, .modified reloads, tells⟩

theorem Indexed.handle (h : r.Indexed) (request : Request) : (r.handle request).Indexed :=
  h.of_places (places_of_outline (outline_handle r request))

theorem Indexed.handlesNext_processNext (h : r.Indexed) :
    ∃ events, r.HandlesNext events r.processNext.2 ∧ r.Tells events r.processNext.2 := by
  unfold processNext
  cases oldest : r.queue with
  | nil => exact ⟨[], .none oldest, .silent rfl⟩
  | cons request rest =>
    have taken : ({ r with queue := rest } : Repository σ).Indexed := h.of_places rfl
    obtain ⟨events, handles, tells⟩ := taken.handles_handle request
    exact ⟨events, .some oldest handles, tells⟩

/-! ## Sheets that come and go -/

theorem tells_load (r : Repository σ) (location : Location) (name group : Option String) :
    r.Tells (r.arrival (r.load location name group).2) (r.load location name group).2 := by
  have order := order_of_outline (outline_fetch r location)
  rcases r.load_cases location name group with ⟨_, -, done⟩ | ⟨-, e, -, done⟩ | ⟨-, content, -, done⟩ <;>
    rw [done]
  · exact tells_of_order rfl rfl
  · exact tells_of_order (notifier_fetch ..) order
  · exact tells_insert (notifier_fetch ..) order _

theorem tells_loadFromBundle (r : Repository σ) (path : String) (name group : Option String) :
    r.Tells (r.arrival (r.loadFromBundle path name group).2) (r.loadFromBundle path name group).2 := by
  unfold loadFromBundle
  split
  · exact tells_of_order rfl rfl
  · rename_i location source _
    exact tells_load { r with source := source } location name group

theorem loadsRefreshable_loadRefreshable (r : Repository σ) (location : Location) (name group : Option String) :
    ∃ events, r.LoadsRefreshable location name group events (r.loadRefreshable location name group).2 ∧
      r.Tells events (r.loadRefreshable location name group).2 := by
  unfold LoadsRefreshable
  rcases r.loadRefreshable_cases location name group with
    ⟨_, -, done⟩ | ⟨-, -, done⟩ | ⟨-, -, sheet, rfl, done⟩ <;> rw [done]
  · exact ⟨[], by rw [if_neg (Nat.lt_irrefl _)], .silent rfl⟩
  · exact ⟨[], by rw [if_neg]; exact Nat.lt_irrefl _, .silent rfl⟩
  · let sheet := (Sheet.build location .empty name group).refreshable
    let stored := ((r.asked location).insert sheet).2
    have loaded : stored.get? ⟨r.nextIndex⟩ = some sheet :=
      (get?_insert (r.asked location) sheet _).trans (if_pos rfl)
    obtain ⟨outcome, refreshed, refresh⟩ :=
      refreshes_refresh (r := stored.emit (.willRefresh (some ⟨r.nextIndex⟩))) loaded true
    have reloaded : (stored.reload ⟨r.nextIndex⟩ true).2 = refreshed := by
      rw [reload_of_refreshable loaded rfl, refresh.done]
    rw [reloaded]
    have order : (refreshed.startMonitoring ⟨r.nextIndex⟩).order = r.order ++ [⟨r.nextIndex⟩] := by
      rw [order_of_places (places_startMonitoring refreshed _), ← reloaded]
      exact order_of_outline (outline_reload stored _ true)
    refine ⟨[.invalidateAll, .willRefresh (some ⟨r.nextIndex⟩),
      .didRefresh ⟨r.nextIndex⟩ location outcome], ?_, ?_⟩
    · rw [if_pos (by simp [size, order])]
      exact ⟨sheet, outcome, refreshed, rfl, refresh, rfl, rfl⟩
    · have told : r.Tells [.invalidateAll, .willRefresh (some ⟨r.nextIndex⟩)]
          (stored.emit (.willRefresh (some ⟨r.nextIndex⟩))) := rfl
      have watched : refreshed.Tells [] (refreshed.startMonitoring ⟨r.nextIndex⟩) :=
        .silent (notifier_startMonitoring ..)
      exact told.trans (refresh.tells.trans watched)

/-- **Every operation tells what it announces**: the subscribed observers that there were hear it, and the others
hear nothing. -/
theorem Indexed.announces_perform (h : r.Indexed) (op : Operation σ) :
    ∃ events, r.Announces op events ∧ r.Heard events (r.perform op) := by
  cases op with
  | load location name group => exact ⟨_, rfl, (tells_load r location name group).heard⟩
  | loadFromBundle path name group => exact ⟨_, rfl, (tells_loadFromBundle r path name group).heard⟩
  | register sheet => exact ⟨_, rfl, (tells_register r sheet).heard⟩
  | loadRefreshable location name group =>
    obtain ⟨events, loads, tells⟩ := r.loadsRefreshable_loadRefreshable location name group
    exact ⟨events, loads, tells.heard⟩
  | setActive id active => exact ⟨_, rfl, (tells_setActive r id active).heard⟩
  | unload id => exact ⟨_, rfl, (tells_unload r id).heard⟩
  | unloadAll => exact ⟨_, rfl, (tells_unloadAll r).heard⟩
  | reload id force =>
    obtain ⟨events, reloads, tells⟩ := r.reloads_reload id force
    exact ⟨events, reloads, tells.heard⟩
  | reloadAll force =>
    obtain ⟨events, polls, tells⟩ := h.polls_reloadAll force
    exact ⟨events, polls, tells.heard⟩
  | processPending =>
    have taken : ({ r with queue := [] } : Repository σ).Indexed := h.of_places rfl
    obtain ⟨events, handles, tells⟩ :=
      row_foldl (fun _ request h => h.handle request) r.queue (fun _ h request _ => h.handles_handle request) _ taken
    exact ⟨events, handles, tells.heard⟩
  | awaitRequest limit =>
    have waited : r.Tells [] (r.waiting limit) := .silent (notifier_waiting r limit)
    obtain ⟨events, handles, tells⟩ := (h.waiting limit).handlesNext_processNext
    rw [← awaitRequest_eq] at handles tells
    exact ⟨events, handles, (waited.trans tells).heard⟩
  | enableTimer | disableTimer | openChannel | hangUp _ | report _ | changeSource _ =>
    exact ⟨[], rfl, (Tells.silent rfl).heard⟩
  | setInterval interval => exact ⟨[], rfl, (Tells.silent (notifier_setInterval ..)).heard⟩
  | advance milliseconds => exact ⟨[], rfl, (Tells.silent (notifier_advance ..)).heard⟩
  | subscribe => exact ⟨[], rfl, .silent fun _ _ => Notifier.log?_subscribe⟩
  | unsubscribe observer => exact ⟨[], rfl, .silent fun _ _ => Notifier.log?_unsubscribe observer⟩
  | drain channel => exact ⟨[], rfl, .silent fun _ _ heard => (Notifier.log?_drain channel).trans heard⟩

end Repository

/-! ## Runs -/

namespace Owner

/-- Wherever a run leads, an operation appends to the log of each subscribed observer the events that it announces,
and nothing to the log of any other. -/
theorem Reaches.observers_told {σ : Type} [Source σ] {source : σ} {parser : String → Except ParseError Content}
    {board : Option WatchBoard} {config : RefreshConfig} {hasClock : Bool} {o : Owner σ}
    (run : Reaches (fun _ _ => True) (new source parser board config hasClock) o) (op : Operation σ) :
    ∃ events, o.repository.Announces op events ∧ ∀ i log, o.repository.notifier.log? i = some log →
      (o.perform op).repository.notifier.log? i
        = some (if o.repository.notifier.isSubscribed i then log ++ events else log) :=
  run.indexed.announces_perform op

/-- An owner with an observer, that loads a watched sheet and is told that it has changed. -/
def notified : Owner MemoryFiles :=
  let start : Owner MemoryFiles := .new .empty (fun _ => .ok .empty) (some (.empty none)) .standard true
  let loaded := ((start.perform .subscribe).perform (.changeSource (·.write menu "a"))).perform
    (.loadRefreshable menu none none)
  loaded.perform (.report menu)

/-- What the observer was told when the sheet was loaded. -/
def notified.log : List Event :=
  [.invalidateAll, .willRefresh (some ⟨0⟩), .didRefresh ⟨0⟩ menu .refreshed]

theorem notified.reached :
    Reaches (fun _ _ => True) (new .empty (fun _ => .ok .empty) (some (.empty none)) .standard true) notified :=
  .step (.step (.step (.step .refl trivial) trivial) trivial) trivial

/-- The request that waits is one for the sheet. -/
theorem observers_told_notified :
    ∃ events, (notified.repository.waiting 0).HandlesNext events (notified.perform (.awaitRequest 0)).repository ∧
      (notified.perform (.awaitRequest 0)).repository.notifier.log? 0 = some (notified.log ++ events) := by
  obtain ⟨events, announces, told⟩ := notified.reached.observers_told (.awaitRequest 0)
  exact ⟨events, announces, told 0 notified.log rfl⟩

/-- To wait for a request is not silent: the events of the request that is handled are passed on. -/
theorem awaitRequest_not_silent :
    ¬ ∀ (o : Owner MemoryFiles) (limit i : Nat) (log : List Event),
      Reaches (fun _ _ => True) (new .empty (fun _ => .ok .empty) (some (.empty none)) .standard true) o →
        o.repository.notifier.log? i = some log →
          (o.perform (.awaitRequest limit)).repository.notifier.log? i = some log := by
  intro silent
  have kept := silent notified 0 0 notified.log notified.reached rfl
  have told : (notified.perform (.awaitRequest 0)).repository.notifier.log? 0 = some (notified.log ++
      [.willRefresh (some ⟨0⟩), .didRefresh ⟨0⟩ menu .refreshed]) := rfl
  exact absurd (told.symm.trans kept) (by simp)

end Owner

end Stylebook
