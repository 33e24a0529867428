import Mathlib.Data.List.Nodup
import Stylebook.Proofs.Repository.Index

/-!
# Watches and the sheets that hold them

The board of watches belongs to someone else; the repository puts a watch on it for a sheet that it loads,
keeps the number with the sheet, and ends the watch when the sheet goes. `Repository.Watched` says that the
two sides agree: every watch of the board is held by a loaded sheet, under the identifier and for the location
that the watch has, and every sheet that holds a watch finds it on the board. So a change that is reported
reaches exactly the sheets that wait for it.

That releasing one watch spares the others rests on their numbers, no two of which are the same.
-/

set_option autoImplicit false

namespace Stylebook

/-! ## What watches depend on -/

/-- Where the source of the sheet is, and how the sheet learns of its changes. -/
def Sheet.monitor (s : Sheet) : Location × Option (Monitoring × Option Nat) :=
  (s.location, s.refresh.map fun state => (state.monitoring, state.watch))

theorem Sheet.monitor_outline (s : Sheet) : s.outline.monitor = s.monitor := by
  unfold monitor outline mapRefresh
  cases s.refresh <;> rfl

theorem Sheet.isRefreshable_eq_monitor (s : Sheet) : s.isRefreshable = s.monitor.2.isSome := by
  unfold isRefreshable monitor
  rw [Option.isSome_map]

/-- Where the source of the sheet is, and the watch that is kept on it. -/
def Sheet.holding (s : Sheet) : Location × Option Nat :=
  (s.location, s.watch?)

theorem Sheet.holding_eq_monitor (s : Sheet) : s.holding = (s.monitor.1, s.monitor.2.bind (·.2)) := by
  unfold holding watch? monitor
  cases s.refresh <;> rfl

theorem Sheet.holding_of_monitor {s t : Sheet} (same : s.monitor = t.monitor) : s.holding = t.holding := by
  rw [holding_eq_monitor, holding_eq_monitor, same]

theorem Sheet.holding_mapRefresh {s : Sheet} {f : RefreshState → RefreshState} {watch : Option Nat}
    (sets : ∀ state, (f state).watch = watch) (refreshable : s.isRefreshable) :
    (s.mapRefresh f).holding = (s.location, watch) := by
  obtain ⟨state, hs⟩ := Option.isSome_iff_exists.mp refreshable
  unfold holding watch? mapRefresh
  simp [hs, sets]

namespace Repository

variable {σ : Type} {r r' : Repository σ}

/-- The board, and how each sheet learns of changes. -/
def monitors (r : Repository σ) :
    Option WatchBoard × (SheetId → Option (Location × Option (Monitoring × Option Nat))) :=
  (r.board, r.view Sheet.monitor)

theorem monitors_of_outline (same : r'.outline = r.outline) : r'.monitors = r.monitors := by
  have board : r'.board = r.board := congrArg Outline.board same
  unfold monitors
  rw [view_of_outline Sheet.monitor_outline same, board]

theorem get?_of_monitors (same : r'.monitors = r.monitors) {id : SheetId} {s : Sheet}
    (loaded : r.get? id = some s) : ∃ t, r'.get? id = some t ∧ t.monitor = s.monitor :=
  get?_of_view (congrArg (·.2) same.symm : r.view Sheet.monitor = r'.view Sheet.monitor) loaded

theorem monitors_update (r : Repository σ) (id : SheetId) {f : Sheet → Sheet}
    (same : ∀ s, (f s).monitor = s.monitor) : (r.update id f).monitors = r.monitors := by
  unfold monitors
  rw [view_update r id same, board_update]

theorem monitors_setActive (r : Repository σ) (id : SheetId) (active : Bool) :
    (r.setActive id active).2.monitors = r.monitors := by
  unfold setActive
  split
  · rfl
  · split
    · rfl
    · exact monitors_update r id fun _ => rfl

theorem monitors_disableIdleTimer (r : Repository σ) : r.disableIdleTimer.monitors = r.monitors := by
  obtain ⟨_, _, h⟩ := r.disableIdleTimer_eq
  rw [h]
  rfl

theorem monitors_setInterval (r : Repository σ) (interval : Nat) :
    (r.setInterval interval).monitors = r.monitors := by
  obtain ⟨_, _, h⟩ := r.setInterval_eq interval
  rw [h]
  rfl

theorem monitors_advance (r : Repository σ) (milliseconds : Nat) :
    (r.advance milliseconds).monitors = r.monitors := by
  obtain ⟨_, _, h⟩ := r.advance_eq milliseconds
  rw [h]
  rfl

/-! ## Watches that are held -/

def Live (r : Repository σ) (w : Watch) : Prop :=
  ∃ b, r.board = some b ∧ w ∈ b.watches

/-- The watches on the board are the watches that the loaded sheets hold. -/
structure Watched (r : Repository σ) : Prop where
  distinct : ∀ b, r.board = some b → (b.watches.map (·.number)).Nodup
  issued : ∀ b w, r.board = some b → w ∈ b.watches → w.number < b.next
  held : ∀ id s n, r.get? id = some s → s.watch? = some n → r.Live ⟨n, s.location, id⟩
  owned : ∀ w, r.Live w → ∃ s, r.get? w.sheet = some s ∧ s.location = w.location ∧ s.watch? = some w.number

theorem Watched.of_holdings (h : r.Watched) (board : r'.board = r.board)
    (sheets : r'.view Sheet.holding = r.view Sheet.holding) : r'.Watched := by
  have live : ∀ w, r'.Live w ↔ r.Live w := by
    intro w
    unfold Live
    rw [board]
  refine ⟨board ▸ h.distinct, board ▸ h.issued, fun id s n hs hn => ?_, fun w hw => ?_⟩
  · obtain ⟨t, ht, told⟩ := get?_of_view sheets hs
    have location : t.location = s.location := congrArg (·.1) told
    have watch : t.watch? = s.watch? := congrArg (·.2) told
    rw [live, ← location]
    exact h.held id t n ht (watch.trans hn)
  · obtain ⟨s, hs, location, hn⟩ := h.owned w ((live w).mp hw)
    obtain ⟨t, ht, told⟩ := get?_of_view sheets.symm hs
    exact ⟨t, ht, (congrArg (·.1) told).trans location, (congrArg (·.2) told).trans hn⟩

theorem Watched.of_monitors (h : r.Watched) (same : r'.monitors = r.monitors) : r'.Watched := by
  have sheets : r'.view Sheet.monitor = r.view Sheet.monitor := congrArg (·.2) same
  exact h.of_holdings (congrArg (·.1) same) (view_of_view (fun _ _ => Sheet.holding_of_monitor) sheets)

/-- No two watches have the same number. -/
theorem Watched.eq_of_number (h : r.Watched) {w w' : Watch} (hw : r.Live w) (hw' : r.Live w')
    (same : w.number = w'.number) : w = w' := by
  obtain ⟨b, hb, hm⟩ := hw
  obtain ⟨b', hb', hm'⟩ := hw'
  cases hb.symm.trans hb'
  exact List.inj_on_of_nodup_map (h.distinct b hb) hm hm' same

theorem live_release {sheet : Sheet} {w : Watch} :
    (r.release sheet).Live w ↔ r.Live w ∧ sheet.watch? ≠ some w.number := by
  unfold release
  split
  · rename_i n b hn hb
    rw [hn]
    constructor
    · rintro ⟨b', hb', hm⟩
      cases hb'
      obtain ⟨hm, ne⟩ := WatchBoard.mem_release.mp hm
      exact ⟨⟨b, hb, hm⟩, fun h => ne (Option.some.inj h).symm⟩
    · rintro ⟨⟨b', hb', hm⟩, ne⟩
      cases hb.symm.trans hb'
      exact ⟨_, rfl, WatchBoard.mem_release.mpr ⟨hm, fun h => ne (congrArg some h.symm)⟩⟩
  · -- without a number, or without a board, there is no watch to end
    rename_i none
    refine ⟨fun hw => ⟨hw, fun hn => ?_⟩, And.left⟩
    obtain ⟨b, hb, -⟩ := hw
    exact none w.number b hn hb

theorem board_release {sheet : Sheet} {c : WatchBoard} (h : (r.release sheet).board = some c) :
    ∃ b, r.board = some b ∧ c.next = b.next ∧ c.watches.Sublist b.watches := by
  unfold release at h
  split at h
  · rename_i b _ hb
    cases h
    exact ⟨b, hb, rfl, List.filter_sublist⟩
  · exact ⟨c, h, rfl, .refl _⟩

/-! ## Sheets that come and go -/

theorem watched_of_empty (clean : ∀ b, r.board = some b → b.watches = [])
    (sheets : ∀ id, r.get? id = none) : r.Watched := by
  refine ⟨fun b hb => ?_, fun b w hb hw => ?_, fun id s n hs => ?_, fun w hw => ?_⟩
  · rw [clean b hb]
    exact List.nodup_nil
  · rw [clean b hb] at hw
    cases hw
  · rw [sheets] at hs
    cases hs
  · obtain ⟨b, hb, hw⟩ := hw
    rw [clean b hb] at hw
    cases hw

theorem Watched.insert (h : r.Watched) (indexed : r.Indexed) {sheet : Sheet} (free : sheet.watch? = none) :
    (r.insert sheet).2.Watched := by
  refine ⟨h.distinct, h.issued, fun id s n hs hn => ?_, fun w hw => ?_⟩
  · rw [get?_insert] at hs
    split at hs
    · cases hs
      rw [free] at hn
      cases hn
    · exact h.held id s n hs hn
  · obtain ⟨s, hs, told⟩ := h.owned w hw
    exact ⟨s, indexed.get?_insert_of_loaded sheet hs, told⟩

/-- A watch is put on for a sheet that has none. -/
theorem Watched.put (h : r.Watched) {b : WatchBoard} (hb : r.board = some b) {id : SheetId} {sheet : Sheet}
    (loaded : r.get? id = some sheet) (free : sheet.watch? = none) {f : Sheet → Sheet}
    (board : r'.board = some
      { b with watches := b.watches ++ [⟨b.next, sheet.location, id⟩], next := b.next + 1 })
    (sheets : ∀ k, r'.get? k = if id = k then (r.get? k).map f else r.get? k)
    (takes : (f sheet).holding = (sheet.location, some b.next)) : r'.Watched := by
  have location : (f sheet).location = sheet.location := congrArg (·.1) takes
  have watch : (f sheet).watch? = some b.next := congrArg (·.2) takes
  have live : ∀ w, r'.Live w ↔ r.Live w ∨ w = ⟨b.next, sheet.location, id⟩ := by
    intro w
    simp [Live, board, hb]
  refine ⟨fun c hc => ?_, fun c w hc hw => ?_, fun k s n hs hn => ?_, fun w hw => ?_⟩
  · cases board.symm.trans hc
    rw [List.map_append, List.nodup_append]
    refine ⟨h.distinct b hb, List.nodup_singleton _, fun n hn n' hn' => ?_⟩
    -- numbers are given out in order, so those on the board are lower
    obtain ⟨w, hw, rfl⟩ := List.mem_map.mp hn
    cases List.mem_singleton.mp hn'
    exact Nat.ne_of_lt (h.issued b w hb hw)
  · cases board.symm.trans hc
    rcases List.mem_append.mp hw with hw | hw
    · exact Nat.lt_succ_of_lt (h.issued b w hb hw)
    · cases List.mem_singleton.mp hw
      exact Nat.lt_succ_self _
  · rw [sheets] at hs
    rw [live]
    split at hs
    · rename_i hk
      subst hk
      rw [loaded] at hs
      cases hs
      cases watch.symm.trans hn
      exact .inr (by rw [location])
    · exact .inl (h.held k s n hs hn)
  · rcases (live w).mp hw with hw | rfl
    · obtain ⟨s, hs, told⟩ := h.owned w hw
      refine ⟨s, ?_, told⟩
      rw [sheets, if_neg]
      · exact hs
      · -- the sheet that takes the new watch had none
        intro same
        rw [← same, loaded] at hs
        cases hs
        exact absurd (free.symm.trans told.2) (by simp)
    · refine ⟨f sheet, ?_, location, watch⟩
      rw [sheets, if_pos rfl, loaded, Option.map_some]

/-- A watch is put on for a refreshable sheet that has none, or the sheet is polled. -/
theorem Watched.startMonitoring (h : r.Watched) {id : SheetId} {sheet : Sheet}
    (loaded : r.get? id = some sheet) (refreshable : sheet.isRefreshable) (free : sheet.watch? = none) :
    (r.startMonitoring id).Watched := by
  unfold Repository.startMonitoring
  rw [loaded]
  dsimp only
  split
  · rename_i number b' watch
    obtain ⟨b, hb, watch⟩ := Option.bind_eq_some_iff.mp watch
    obtain ⟨rfl, rfl⟩ := WatchBoard.watch?_eq_some watch
    refine h.put hb loaded free (by rw [board_update]) (fun k => get?_update ..) ?_
    exact Sheet.holding_mapRefresh (fun _ => rfl) refreshable
  · refine h.of_holdings (board_update ..) (funext fun k => ?_)
    show ((r.update id _).get? k).map Sheet.holding = (r.get? k).map Sheet.holding
    rw [get?_update]
    split
    · -- the sheet had no watch, and polling it does not give it one
      rename_i hk
      subst hk
      have kept : sheet.holding = (sheet.location, none) := by
        unfold Sheet.holding
        rw [free]
      rw [loaded, Option.map_some, Option.map_some, Option.map_some, kept]
      exact congrArg some (Sheet.holding_mapRefresh (fun _ => rfl) refreshable)
    · rfl

/-- A sheet goes, and its watch with it. -/
theorem Watched.discard (h : r.Watched) (id : SheetId) : (r.discard id).Watched := by
  cases hs : r.get? id with
  | none =>
    unfold Repository.discard
    rw [hs]
    exact h
  | some sheet =>
    have live : ∀ w, (r.discard id).Live w ↔ r.Live w ∧ sheet.watch? ≠ some w.number := by
      intro w
      unfold Repository.discard
      rw [hs]
      exact live_release
    have board : ∀ c, (r.discard id).board = some c → ∃ b, r.board = some b ∧ c.next = b.next ∧
        c.watches.Sublist b.watches := by
      intro c hc
      unfold Repository.discard at hc
      rw [hs] at hc
      exact board_release (r := { r with sheets := r.sheets.erase id }) hc
    refine ⟨fun c hc => ?_, fun c w hc hw => ?_, fun k s n hk hn => ?_, fun w hw => ?_⟩
    · obtain ⟨b, hb, -, fewer⟩ := board c hc
      exact (h.distinct b hb).sublist (fewer.map _)
    · obtain ⟨b, hb, next, fewer⟩ := board c hc
      rw [next]
      exact h.issued b w hb (fewer.subset hw)
    · rw [get?_discard] at hk
      split at hk
      · cases hk
      rename_i other
      have there := h.held k s n hk hn
      refine (live _).mpr ⟨there, fun same => ?_⟩
      -- two holders of one watch would be one sheet
      have there' := h.held id sheet n hs same
      exact other (congrArg Watch.sheet (h.eq_of_number there' there rfl))
    · obtain ⟨hw, spared⟩ := (live w).mp hw
      obtain ⟨s, hk, told⟩ := h.owned w hw
      refine ⟨s, ?_, told⟩
      rw [get?_discard, if_neg]
      · exact hk
      · -- a watch that is still there is not the one of the sheet that went
        intro same
        rw [← same, hs] at hk
        cases hk
        exact spared told.2

theorem Watched.unload (h : r.Watched) (id : SheetId) : (r.unload id).2.Watched := by
  unfold Repository.unload
  split
  · exact h
  · have discarded : ({ r.discard id with order := r.order.filter (· ≠ id) } : Repository σ).Watched :=
      (h.discard id).of_monitors rfl
    exact discarded.of_monitors (monitors_disableIdleTimer _)

theorem Watched.foldl_discard (h : r.Watched) (ids : List SheetId) : (ids.foldl Repository.discard r).Watched := by
  induction ids generalizing r with
  | nil => exact h
  | cons id rest ih => exact ih (h.discard id)

theorem get?_foldl_discard (ids : List SheetId) (r : Repository σ) (k : SheetId) :
    (ids.foldl discard r).get? k = if k ∈ ids then none else r.get? k := by
  induction ids generalizing r with
  | nil => simp
  | cons id rest ih =>
    rw [List.foldl_cons, ih, get?_discard]
    by_cases hk : k ∈ rest
    · simp [hk]
    · by_cases same : id = k
      · simp [same]
      · simp [hk, same, Ne.symm same]

/-- Every sheet is in the order, so every watch goes. -/
theorem Watched.unloadAll (h : r.Watched) (indexed : r.Indexed) : r.unloadAll.Watched := by
  have discarded := h.foldl_discard r.order
  have none : ∀ id, (r.order.foldl Repository.discard r).get? id = none := by
    intro id
    rw [get?_foldl_discard]
    split
    · rfl
    · rename_i out
      exact Option.not_isSome_iff_eq_none.mp fun loaded => out ((indexed.mem_order id).mpr loaded)
  -- so nothing is left for `clear` to end
  have rest : (r.order.foldl Repository.discard r).sheets.entries = [] := Table.entries_eq_nil none
  have cleared : ({ (r.order.foldl Repository.discard r).clear with order := [] } : Repository σ).Watched := by
    unfold clear
    rw [rest]
    refine discarded.of_holdings rfl (funext fun id => ?_)
    show Option.map _ Option.none = _
    rw [view, none]
  exact cleared.of_monitors (monitors_disableIdleTimer _)

theorem Watched.register (h : r.Watched) (indexed : r.Indexed) {sheet : Sheet} (free : sheet.watch? = none) :
    (r.register sheet).2.Watched := by
  unfold Repository.register
  split
  · exact h
  · exact h.insert indexed free

variable [Source σ]

theorem Watched.load (h : r.Watched) (indexed : r.Indexed) (location : Location)
    (name group : Option String) : (r.load location name group).2.Watched := by
  have fetched := outline_fetch r location
  have same := h.of_monitors (monitors_of_outline fetched)
  rcases r.load_cases location name group with ⟨id, -, done⟩ | ⟨-, e, -, done⟩ | ⟨-, content, -, done⟩ <;>
    rw [done]
  · exact h
  · exact same
  · exact same.insert (indexed.of_places (places_of_outline fetched)) rfl

theorem Watched.loadFromBundle (h : r.Watched) (indexed : r.Indexed) (path : String)
    (name group : Option String) : (r.loadFromBundle path name group).2.Watched := by
  unfold Repository.loadFromBundle
  split
  · exact h.of_monitors rfl
  · rename_i source _
    have asked : ({ r with source := source } : Repository σ).Watched := h.of_monitors rfl
    exact asked.load (indexed.of_places rfl) ..

/-- The sheet that is loaded last is there, without a watch, after its first refresh. -/
theorem get?_reload_insert (r : Repository σ) {sheet : Sheet} (free : sheet.watch? = none)
    (refreshable : sheet.isRefreshable) (force : Bool) :
    ∃ s, ((r.insert sheet).2.reload ⟨r.nextIndex⟩ force).2.get? ⟨r.nextIndex⟩ = some s ∧
      s.isRefreshable ∧ s.watch? = none := by
  have same := outline_reload (r.insert sheet).2 ⟨r.nextIndex⟩ force
  have inserted : (r.insert sheet).2.get? ⟨r.nextIndex⟩ = some sheet := by
    rw [get?_insert, if_pos rfl]
  obtain ⟨s, hs, told⟩ := get?_of_monitors (monitors_of_outline same) inserted
  have watch : s.watch? = sheet.watch? := congrArg (·.2) (Sheet.holding_of_monitor told)
  refine ⟨s, hs, ?_, watch.trans free⟩
  rw [Sheet.isRefreshable_eq_monitor, told, ← Sheet.isRefreshable_eq_monitor]
  exact refreshable

theorem Watched.loadRefreshable (h : r.Watched) (indexed : r.Indexed) (location : Location)
    (name group : Option String) : (r.loadRefreshable location name group).2.Watched := by
  have asked : (r.asked location).Watched := h.of_monitors rfl
  rcases r.loadRefreshable_cases location name group with
    ⟨id, -, done⟩ | ⟨-, -, done⟩ | ⟨-, -, sheet, new, done⟩ <;> rw [done]
  · exact h
  · exact asked
  · have free : sheet.watch? = none := by rw [new]; rfl
    have lasting : sheet.isRefreshable := by rw [new]; rfl
    have inserted := asked.insert (indexed.of_places rfl) free
    have reloaded := inserted.of_monitors (monitors_of_outline (outline_reload _ ⟨r.nextIndex⟩ true))
    obtain ⟨s, hs, refreshable, free'⟩ := (r.asked location).get?_reload_insert free lasting true
    exact reloaded.startMonitoring hs refreshable free'

/-- **Every operation keeps the watches of the board and those of the sheets together**, as long as no sheet
is registered that claims to hold one. -/
theorem Watched.perform (h : r.Watched) (indexed : r.Indexed) (op : Operation σ)
    (free : ∀ sheet, op = .register sheet → sheet.watch? = none) : (r.perform op).Watched := by
  cases op with
  | load location name group => exact h.load indexed ..
  | loadFromBundle path name group => exact h.loadFromBundle indexed ..
  | loadRefreshable location name group => exact h.loadRefreshable indexed ..
  | register sheet => exact h.register indexed (free sheet rfl)
  | setActive id active => exact h.of_monitors (monitors_setActive ..)
  | reload id force => exact h.of_monitors (monitors_of_outline (outline_reload ..))
  | reloadAll force => exact h.of_monitors (monitors_of_outline (outline_reloadAll ..))
  | processPending => exact h.of_monitors (monitors_of_outline (outline_processPending r))
  | awaitRequest limit =>
    have advanced := h.of_monitors (monitors_advance r (r.untilNextPoll limit))
    show (r.awaitRequest limit).2.Watched
    unfold awaitRequest
    split
    · exact advanced.of_monitors (monitors_of_outline (outline_processNext _))
    · exact h.of_monitors (monitors_of_outline (outline_processNext _))
  | unload id => exact h.unload id
  | unloadAll => exact h.unloadAll indexed
  | setInterval interval => exact h.of_monitors (monitors_setInterval ..)
  | advance milliseconds => exact h.of_monitors (monitors_advance ..)
  | enableTimer | disableTimer | subscribe | unsubscribe _ | openChannel | drain _ | hangUp _ | report _
  | changeSource _ => exact h.of_monitors rfl

end Repository

/-! ## Runs -/

namespace Owner

variable {σ : Type} [Source σ]

/-- A sheet from outside holds no watch: watches are put on by the repository alone. -/
def Unbound (_ : Owner σ) : Operation σ → Prop
  | .register sheet => sheet.watch? = none
  | _ => True

/-- Wherever a run on a new board leads, the watches of the board are those that the sheets hold. -/
theorem Reaches.watched {source : σ} {parser : String → Except ParseError Content}
    {board : Option WatchBoard} {config : RefreshConfig} {hasClock : Bool} {o : Owner σ}
    (run : Reaches Unbound (new source parser board config hasClock) o)
    (clean : ∀ b, board = some b → b.watches = []) : o.repository.Indexed ∧ o.repository.Watched := by
  refine run.invariant (I := fun o => o.repository.Indexed ∧ o.repository.Watched) ?_ ?_
  · refine ⟨Repository.indexed_of_empty rfl fun _ => rfl, ?_⟩
    exact Repository.watched_of_empty clean fun _ => rfl
  · rintro o op unbound ⟨indexed, watched⟩
    refine ⟨indexed.perform op, watched.perform indexed op ?_⟩
    rintro sheet rfl
    exact unbound

end Owner

end Stylebook
