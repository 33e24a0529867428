import Stylebook.Proofs.Repository.History

/-!
# Polls back off after a failure to read

A source that could not be read is left alone by polls for as long as the configuration says. The record of the
failure is all that a poll looks at; so what has to be known is that the record is right (`Recalls`, for which
each operation is looked at once), and that a poll attempts the sheets that are due and no others (`PollsDue`).

The bound on two attempts in a row follows from the history alone: when an attempt of a poll was made, the record
was that of the attempts before it, and the poll heeded it. Forced polls and reloads look at no record.
-/

set_option autoImplicit false

namespace Stylebook

/-- Where no sheet has two attempts, a sheet has one or none. -/
theorem Attempt.atSheet_of_nodup {as : List Attempt} (once : (as.map (·.sheet)).Nodup) (id : SheetId) :
    atSheet id as = [] ∨ ∃ a, a ∈ as ∧ a.sheet = id ∧ atSheet id as = [a] := by
  have own : ∀ a ∈ atSheet id as, a ∈ as ∧ a.sheet = id := fun a => mem_atSheet.mp
  have nodup : ((atSheet id as).map (·.sheet)).Nodup := once.sublist (List.filter_sublist.map _)
  cases listed : atSheet id as with
  | nil => exact .inl rfl
  | cons a rest =>
    rw [listed] at own nodup
    obtain ⟨made, here⟩ := own a List.mem_cons_self
    cases rest with
    | nil => exact .inr ⟨a, made, here, rfl⟩
    | cons b rest =>
      obtain ⟨-, there⟩ := own b (by simp)
      simp [here, there] at nodup

namespace Repository

variable {σ : Type} {r r' : Repository σ} {as : List Attempt} {a : Attempt} {history : SheetId → List Attempt}
  {brought : List Attempt}

/-! ## What a poll attempts -/

theorem mem_along {α : Type} {f : Repository σ → α → Repository σ} {made : Repository σ → α → List Attempt}
    {row : List α} (h : a ∈ along f made row r) : ∃ r' x, x ∈ row ∧ a ∈ made r' x := by
  induction row generalizing r with
  | nil => cases h
  | cons x rest ih =>
    rcases List.mem_append.mp h with h | h
    · exact ⟨r, x, List.mem_cons_self, h⟩
    · obtain ⟨r', y, listed, made⟩ := ih h
      exact ⟨r', y, List.mem_cons_of_mem x listed, made⟩

variable [Source σ]

theorem occasion_of_mem {occasion : Occasion} {id : SheetId} (h : a ∈ r.refreshAttempts occasion id) :
    a.occasion = occasion := by
  obtain ⟨s, -, rfl⟩ := List.mem_map.mp h
  rfl

theorem occasion_of_mem_pollAttempts {force : Bool} (h : a ∈ r.pollAttempts force) : a.occasion = .poll force := by
  obtain ⟨r', id, -, made⟩ := mem_along h
  exact occasion_of_mem made

theorem occasion_of_mem_reloadAttempts {id : SheetId} {force : Bool} (h : a ∈ r.reloadAttempts id force) :
    a.occasion = .reload force := by
  unfold reloadAttempts at h
  split at h
  · exact occasion_of_mem h
  · cases h

/-- One attempt is made at each sheet of a row, if they are loaded. -/
theorem map_sheet_along {occasion : Occasion} {force : Bool} (ids : List SheetId) (r : Repository σ)
    (loaded : ∀ id ∈ ids, (r.get? id).isSome) :
    (along (fun r id => (r.refresh id force).2) (fun r id => r.refreshAttempts occasion id) ids r).map (·.sheet)
      = ids := by
  induction ids generalizing r with
  | nil => rfl
  | cons id rest ih =>
    obtain ⟨first, others⟩ := List.forall_mem_cons.mp loaded
    obtain ⟨s, there⟩ := Option.isSome_iff_exists.mp first
    have made : (r.refreshAttempts occasion id).map (·.sheet) = [id] := by
      simp [refreshAttempts, there, attempt]
    unfold along
    rw [List.map_append, made, ih]
    · rfl
    · intro k hk
      rw [isSome_of_outline (outline_refresh ..)]
      exact others k hk

theorem map_sheet_pollAttempts (r : Repository σ) (force : Bool) :
    (r.pollAttempts force).map (·.sheet) = r.polled force := by
  refine map_sheet_along (r.polled force) _ fun id due => ?_
  obtain ⟨s, loaded, -⟩ := mem_polled due
  rw [get?_emit, loaded]
  rfl

/-! ## Polls heed the record -/

theorem Indexed.heeds_poll (h : r.Indexed) (force : Bool) : r.Heeds (r.pollAttempts force) := by
  intro id s loaded
  have due := h.due_polled force
  have once : ((r.pollAttempts force).map (·.sheet)).Nodup := by
    rw [map_sheet_pollAttempts]
    exact due.once
  rcases Attempt.atSheet_of_nodup once id with none | ⟨a, made, rfl, only⟩
  · rw [none]
    trivial
  · rw [only]
    refine ⟨fun polled => ?_, trivial⟩
    -- the sheet is as it was when the poll began
    have listed : a.sheet ∈ r.polled force := by
      rw [← map_sheet_pollAttempts]
      exact List.mem_map.mpr ⟨a, made, rfl⟩
    obtain ⟨s', loaded', -, -, ready⟩ := (due.mem a.sheet).mp listed
    cases loaded.symm.trans loaded'
    rw [((undergoes_reloadAll r force).made a made).1]
    refine ready.resolve_left fun forced => ?_
    have unforced := (occasion_of_mem_pollAttempts made).symm.trans polled
    rw [forced] at unforced
    cases unforced

theorem heeds_reload (r : Repository σ) (id : SheetId) (force : Bool) : r.Heeds (r.reloadAttempts id force) := by
  refine heeds_of_forall fun a made => ?_
  rw [occasion_of_mem_reloadAttempts made]
  exact Occasion.noConfusion

theorem Indexed.heeds_request (h : r.Indexed) (request : Request) : r.Heeds (r.requestAttempts request) := by
  cases request with
  | poll => exact h.heeds_poll false
  | modified id => exact heeds_reload r id true

/-- One request after another, by induction on the row. -/
theorem Indexed.heeds_requests (requests : List Request) (r : Repository σ) (h : r.Indexed) :
    r.Heeds (along Repository.handle requestAttempts requests r) := by
  induction requests generalizing r with
  | nil => exact heeds_of_forall (by simp [along])
  | cons request rest ih => exact (h.heeds_request request).append (undergoes_handle r request) (ih _ (h.handle request))

theorem Indexed.heeds_next (h : r.Indexed) : r.Heeds r.nextAttempts := by
  unfold nextAttempts
  cases r.queue with
  | nil => exact heeds_of_forall (by simp)
  | cons request rest =>
    have taken : ({ r with queue := rest } : Repository σ).Indexed := h.of_places rfl
    exact taken.heeds_request request

/-! ## Every operation keeps the records in agreement -/

namespace Recalls

theorem load (h : r.Recalls history) (indexed : r.Indexed) (location : Location) (name group : Option String) :
    (r.load location name group).2.Recalls (r.carried history []) := by
  have fetched := idles_fetch r location
  have same : (r.fetch location).2.carried history [] = r.carried history [] := by
    unfold carried get?
    rw [sheets_fetch]
  rcases r.load_cases location name group with ⟨_, -, done⟩ | ⟨-, e, -, done⟩ | ⟨-, content, -, done⟩ <;> rw [done]
  · exact h.welcome []
  · exact (h.welcome []).idles fetched
  · have new := (indexed.of_places (places_of_outline (outline_fetch r location))).get?_next
    have unrecorded : (Sheet.build location content name group).failedAt? = none := rfl
    have stored := (h.idles fetched).insert new (.of_unrecorded unrecorded)
    rwa [same] at stored

theorem loadFromBundle (h : r.Recalls history) (indexed : r.Indexed) (path : String) (name group : Option String) :
    (r.loadFromBundle path name group).2.Recalls (r.carried history []) := by
  unfold Repository.loadFromBundle
  split <;> rename_i source _ <;> have asked : r.Idles { r with source := source } := .of_same rfl rfl rfl
  · exact (h.welcome []).idles asked
  · exact (h.idles asked).load (indexed.of_places rfl) _ name group

/-- A sheet that is loaded to be refreshed comes without a record, and is refreshed before it is watched. -/
theorem loadRefreshable (h : r.Recalls history) (indexed : r.Indexed) (location : Location)
    (name group : Option String) : (r.loadRefreshable location name group).2.Recalls fun id =>
      r.carried history [] id ++ Attempt.atSheet id (r.loadAttempts location name group) := by
  have asked : r.Idles (r.asked location) := .of_same rfl rfl rfl
  unfold loadAttempts
  rcases r.loadRefreshable_cases location name group with
    ⟨_, found, done⟩ | ⟨vacant, absent, done⟩ | ⟨vacant, present, sheet, rfl, done⟩ <;> rw [done]
  · simpa [found, Attempt.atSheet] using h.welcome []
  · simpa [absent, Attempt.atSheet] using (h.welcome []).idles asked
  · rw [if_pos (by simp [vacant, present])]
    have unrecorded : (Sheet.build location .empty name group).refreshable.failedAt? = none := rfl
    have stored := (h.idles asked).insert (indexed.of_places rfl).get?_next (.of_unrecorded unrecorded)
    have reloaded := stored.undergoes (undergoes_reload _ ⟨r.nextIndex⟩ true)
      (heeds_reload _ ⟨r.nextIndex⟩ true)
    exact reloaded.idles (idles_startMonitoring _ ⟨r.nextIndex⟩)

/-- **Every operation keeps the records in agreement with the histories**, if a sheet that is registered comes with a
record that agrees with what it brings. -/
theorem perform (h : r.Recalls history) (indexed : r.Indexed) {op : Operation σ}
    (registers : ∀ sheet, op = .register sheet → sheet.Recalls r.config.errorRetryInterval r.now brought)
    (others : (∀ sheet, op ≠ .register sheet) → brought = []) :
    (r.perform op).Recalls fun id => r.carried history brought id ++ Attempt.atSheet id (r.attempts op) := by
  have idle : op.Idle → (r.perform op).Recalls fun id =>
      r.carried history brought id ++ Attempt.atSheet id (r.attempts op) := by
    intro idle
    simpa [attempts_of_idle r idle, Attempt.atSheet] using (h.welcome brought).idles (idles_perform r idle)
  cases op with
  | load location name group =>
    obtain rfl := others (by simp)
    simpa [attempts, Repository.perform, Attempt.atSheet] using h.load indexed location name group
  | loadFromBundle path name group =>
    obtain rfl := others (by simp)
    simpa [attempts, Repository.perform, Attempt.atSheet] using h.loadFromBundle indexed path name group
  | loadRefreshable location name group =>
    obtain rfl := others (by simp)
    exact h.loadRefreshable indexed location name group
  | register sheet => simpa [attempts, Repository.perform, Attempt.atSheet] using h.register indexed (registers sheet rfl)
  | reload id force => exact (h.welcome brought).undergoes (undergoes_reload r id force) (heeds_reload r id force)
  | reloadAll force => exact (h.welcome brought).undergoes (undergoes_reloadAll r force) (indexed.heeds_poll force)
  | processPending =>
    have taken : ({ r with queue := [] } : Repository σ).Indexed := indexed.of_places rfl
    exact (h.welcome brought).undergoes (undergoes_processPending r) (taken.heeds_requests r.queue)
  | awaitRequest limit =>
    have waited := (h.welcome brought).idles (idles_waiting r limit)
    show (r.awaitRequest limit).2.Recalls _
    rw [awaitRequest_eq]
    exact waited.undergoes (undergoes_processNext _) (indexed.waiting limit).heeds_next
  | _ => exact idle trivial

end Recalls

/-! ## Which sheets a poll attempts -/

/-- A poll makes one attempt at each sheet that is due, oldest first, and lets all others be: the active ones that are
polled, but for those whose source failed to be read less than `retry` milliseconds ago, unless the poll is forced. -/
structure PollsDue (r : Repository σ) (retry : Nat) (force : Bool) : Prop where
  ordered : ((r.pollAttempts force).map (·.sheet)).Sublist r.order
  once : ((r.pollAttempts force).map (·.sheet)).Nodup
  due : ∀ id, id ∈ (r.pollAttempts force).map (·.sheet) ↔
    ∃ s, r.get? id = some s ∧ s.active = true ∧ s.isPolling = true ∧
      (force = true ∨ ∀ t, s.failedAt? = some t → t + retry ≤ r.now)
  /-- The source is asked what the attempts ask it, and nothing else. -/
  asked : (r.reloadAll force).source = ((r.pollAttempts force).flatMap (·.questions)).foldl ask r.source
  /-- The attempts are reported, and nothing else. -/
  reported : ∃ events, r.Heard events (r.reloadAll force) ∧
    events.filter Event.isReport = (r.pollAttempts force).map (·.report r.parser)
  /-- A sheet that is not due stays as it is, and is neither asked for nor reported. -/
  spared : ∀ id s, r.get? id = some s → id ∉ (r.pollAttempts force).map (·.sheet) →
    (r.reloadAll force).get? id = some s ∧
    (∀ q ∈ (r.pollAttempts force).flatMap (·.questions), q.location ≠ s.location) ∧
    ∀ location outcome, Event.didRefresh id location outcome ∉
      (r.pollAttempts force).map (·.report r.parser)

theorem Indexed.pollsDue (h : r.Indexed) (recalls : r.Recalls history) (force : Bool) :
    r.PollsDue r.config.errorRetryInterval force := by
  have polls := undergoes_reloadAll r force
  have due := h.due_polled force
  have sheets := map_sheet_pollAttempts r force
  obtain ⟨events, tells, reports⟩ := polls.told
  refine ⟨sheets ▸ due.ordered, sheets ▸ due.once, fun id => ?_, polls.source, ⟨events, tells.heard, reports⟩, ?_⟩
  · rw [sheets, due.mem]
    refine exists_congr fun s => and_congr_right fun loaded => and_congr_right fun _ => and_congr_right fun polling => ?_
    have past := fun t => (recalls id s loaded).failedAt_le (t := t) (Sheet.isRefreshable_of_isPolling polling)
    rw [Sheet.isBackingOff_eq_false past]
  · intro id s loaded spared
    have none : Attempt.atSheet id (r.pollAttempts force) = [] := by
      refine List.eq_nil_iff_forall_not_mem.mpr fun a ha => ?_
      obtain ⟨made, here⟩ := Attempt.mem_atSheet.mp ha
      exact spared (List.mem_map.mpr ⟨a, made, here⟩)
    refine ⟨?_, fun q asked same => ?_, fun location outcome reported => ?_⟩
    · rw [polls.sheets, none, loaded]
      rfl
    · -- the attempt would be at a sheet from the same location, of which there is no other
      obtain ⟨a, made, hq⟩ := List.mem_flatMap.mp asked
      obtain ⟨-, t, there, -, place⟩ := polls.made a made
      have location := (place.trans (Attempt.location_of_mem_questions hq).symm).trans same
      exact spared (List.mem_map.mpr ⟨a, made, h.distinct _ _ _ _ there loaded location⟩)
    · obtain ⟨a, made, report⟩ := List.mem_map.mp reported
      cases report
      exact spared (List.mem_map.mpr ⟨a, made, rfl⟩)

end Repository

/-! ## Runs -/

namespace Chronicle

variable {σ : Type} [Source σ] {c : Chronicle σ} {retry : Nat} {op : Operation σ} {brought : List Attempt}

/-- The sheets agree with their histories, those that were unloaded too. -/
structure Sound (retry : Nat) (c : Chronicle σ) : Prop where
  indexed : c.repository.Indexed
  interval : c.repository.config.errorRetryInterval = retry
  loaded : c.repository.Recalls c.history
  unloaded : ∀ e ∈ c.unloaded, e.1.Recalls retry c.repository.now e.2

theorem Sound.perform (h : c.Sound retry) (brings : c.Brings op brought) : (c.perform op brought).Sound retry := by
  have passes := c.repository.passes_perform op
  refine ⟨h.indexed.perform op, passes.retry.trans h.interval, h.loaded.perform h.indexed ?_ ?_, ?_⟩
  · rintro sheet rfl
    rw [h.interval]
    rcases brings with ⟨known, there, same⟩ | ⟨unrecorded, rfl⟩
    · exact (h.unloaded _ there).of_lapse (Sheet.lapse_congr same.symm)
    · exact .of_unrecorded unrecorded
  · intro other
    cases op with
    | register sheet => exact absurd rfl (other sheet)
    | _ => exact brings
  · intro e he
    have there : e.1.Recalls retry c.repository.now e.2 := by
      rcases List.mem_append.mp he with he | he
      · exact h.unloaded e he
      · -- what an unload gives back was in the repository, and has lost its watch only
        obtain ⟨s, returned, rfl⟩ := List.mem_map.mp he
        obtain ⟨id, t, rfl, loaded, rfl⟩ := Repository.mem_returned returned
        have recalls := h.loaded id t loaded
        rw [h.interval] at recalls
        refine recalls.of_lapse ?_
        unfold Sheet.lapse Sheet.isRefreshable Sheet.failedAt? Sheet.unwatched Sheet.mapRefresh
        cases t.refresh <;> rfl
    exact there.later passes.now

theorem Recounts.sound {source : σ} {parser : String → Except ParseError Content} {board : Option WatchBoard}
    {config : RefreshConfig} {hasClock : Bool} (run : Recounts (new source parser board config hasClock) c) :
    c.Sound config.errorRetryInterval := by
  induction run with
  | refl =>
    refine ⟨Repository.indexed_of_empty rfl fun _ => rfl, rfl, fun _ _ loaded => ?_, fun _ he => ?_⟩
    · cases loaded
    · cases he
  | step _ brings ih => exact ih.perform brings

/-- Wherever a run leads, with the attempts at each sheet kept as its history:

* a refreshable sheet records a failure at a time exactly if its last attempt that did not end as unchanged was then,
  and the source was missing or could not be read;
* a poll attempts exactly the active sheets that are polled and record no failure, or one that is at least the retry
  interval ago, and if it is forced those that record a later one as well; it asks the source nothing about the others,
  and reports nothing on them;
* if an attempt failed to read, and the next one, but for some that ended as unchanged, was made by a poll that was not
  forced, then the two are at least the retry interval apart;
* a reload makes its attempt, whatever is recorded. -/
theorem Recounts.polls_back_off {source : σ} {parser : String → Except ParseError Content} {board : Option WatchBoard}
    {config : RefreshConfig} {hasClock : Bool} (run : Recounts (new source parser board config hasClock) c) :
    let r := c.repository
    let retry := config.errorRetryInterval
    (∀ id s t, r.get? id = some s → s.isRefreshable →
      (s.failedAt? = some t ↔ Attempt.LastLost r.parser (c.history id) t)) ∧
    (∀ force, r.PollsDue retry force) ∧
    (∀ id s before a between b after, r.get? id = some s →
      c.history id = before ++ a :: (between ++ b :: after) → a.isLost = true →
        (∀ x ∈ between, x.outcome r.parser = .unchanged) → b.occasion = .poll false → a.time + retry ≤ b.time) ∧
    ∀ id s force, r.get? id = some s → s.isRefreshable → ∃ a, r.attempts (.reload id force) = [a] ∧ a.sheet = id ∧
      (r.reload id force).1 = .ok (a.outcome r.parser) := by
  intro r retry
  have sound := run.sound
  refine ⟨fun id s t loaded refreshable => ?_, fun force => ?_, ?_, ?_⟩
  · rw [(sound.loaded id s loaded).failedAt refreshable]
    exact Attempt.lastFailure_eq_some
  · have polls := sound.indexed.pollsDue sound.loaded force
    rwa [sound.interval] at polls
  · intro id s before a between b after loaded history lost unchanged polled
    have spaced := (sound.loaded id s loaded).spaced
    rw [sound.interval, history, ← List.cons_append, ← List.append_assoc] at spaced
    refine spaced _ b after rfl polled a.time ?_
    exact Attempt.lastFailure_eq_some.mpr ⟨before, a, between, rfl, lost, rfl, unchanged⟩
  · intro id s force loaded refreshable
    refine ⟨(r.emit (.willRefresh (some id))).attempt (.reload force) id s, ?_, rfl, ?_⟩
    · show r.reloadAttempts id force = _
      unfold Repository.reloadAttempts
      rw [if_pos (by simp [loaded, refreshable])]
      simp [Repository.refreshAttempts, loaded]
    · rw [Repository.reload_of_refreshable loaded refreshable force]
      exact congrArg Except.ok (Repository.outcome_refresh (r := r.emit _) loaded (.reload force))

/-- A sheet is loaded to be polled, and its file becomes unavailable. It is polled at once, and again when the retry
interval of half a minute is all but over. -/
def outage : Chronicle MemoryFiles :=
  let start : Chronicle MemoryFiles := .new .empty (fun _ => .ok .empty) none .standard true
  let loaded := (start.perform (.changeSource (·.write Owner.menu "a")) []).perform
    (.loadRefreshable Owner.menu none none) []
  let failed := (loaded.perform (.changeSource (·.setUnavailable Owner.menu true)) []).perform (.reloadAll false) []
  (failed.perform (.advance 29999) []).perform (.reloadAll false) []

/-- The second poll leaves the sheet out, a forced one would not, and one that comes a moment later does not. -/
theorem polls_back_off_outage :
    Attempt.LastLost outage.repository.parser (outage.history ⟨0⟩) 0 ∧
    ⟨0⟩ ∉ (outage.repository.pollAttempts false).map (·.sheet) ∧
    ⟨0⟩ ∈ (outage.repository.pollAttempts true).map (·.sheet) ∧
    ⟨0⟩ ∈ ((outage.perform (.advance 1) []).repository.pollAttempts false).map (·.sheet) := by
  have run : Recounts (.new _ _ none .standard _) outage :=
    .step (.step (.step (.step (.step (.step .refl rfl) rfl) rfl) rfl) rfl) rfl
  have run' : Recounts (.new _ _ none .standard _) (outage.perform (.advance 1) []) := .step run rfl
  have loaded : ∃ s, outage.repository.get? ⟨0⟩ = some s ∧
      (outage.perform (.advance 1) []).repository.get? ⟨0⟩ = some s ∧ s.isRefreshable = true ∧ s.active = true ∧
        s.isPolling = true ∧ s.failedAt? = some 0 := ⟨_, rfl, rfl, rfl, rfl, rfl, rfl⟩
  obtain ⟨s, loaded, loaded', refreshable, active, polling, failed⟩ := loaded
  obtain ⟨records, polls, -, -⟩ := run.polls_back_off
  obtain ⟨-, polls', -, -⟩ := run'.polls_back_off
  refine ⟨(records ⟨0⟩ s 0 loaded refreshable).mp failed, fun attempted => ?_, ?_, ?_⟩
  · obtain ⟨t, there, -, -, waited⟩ := ((polls false).due ⟨0⟩).mp attempted
    cases loaded.symm.trans there
    have late : 0 + 30000 ≤ 29999 := waited.resolve_left (by simp) 0 failed
    omega
  · exact ((polls true).due ⟨0⟩).mpr ⟨s, loaded, active, polling, .inl rfl⟩
  · refine ((polls' false).due ⟨0⟩).mpr ⟨s, loaded', active, polling, .inr fun t recorded => ?_⟩
    cases failed.symm.trans recorded
    exact Nat.le_refl 30000

end Chronicle

end Stylebook
