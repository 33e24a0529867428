import Stylebook.Proofs.Repository.Watches

/-!
# Sheets that can learn of changes

A refreshable sheet learns of changes either by being told, which takes a watch that is on the board, or by
asking, which takes polls that are wanted. A repository is *attentive* if each of its refreshable sheets can
learn of changes in one of the two ways.

Three operations set the pieces of this: a refreshable load has its sheet monitored, an unload ends the watch
and perhaps the polls, and registering stores a sheet as it comes. The first two keep a repository attentive.
The third does not: a sheet that was unloaded comes without a watch, and registering it puts none on, nor does
it ask for polls. `Attentive.perform_iff` says that this is the only way in which attention is lost. So runs that
register only sheets which can learn of changes as they come lead to attentive repositories
(`Owner.Reaches.attentive`). `forgotten` is where another run leads (`Owner.forgotten_not_attentive`), and a
sheet that waits for a watch there waits as long as it stays (`Owner.Reaches.keeps_waiting`).
-/

set_option autoImplicit false

namespace Stylebook

namespace Repository

variable {σ : Type} {r r' : Repository σ}

/-- The sheet under an identifier can learn of changes of its source. -/
inductive Learns (r : Repository σ) (id : SheetId) (s : Sheet) : Prop where
  /-- It is told, by a watch on the board. -/
  | told (number : Nat) (mode : s.monitor.2 = some (.events, some number))
      (live : r.Live ⟨number, s.location, id⟩)
  /-- It asks, whenever the polls come round. -/
  | asks (watch : Option Nat) (mode : s.monitor.2 = some (.polling, watch)) (timer : r.timerEnabled = true)

/-- Each refreshable sheet can learn of changes. -/
def Attentive (r : Repository σ) : Prop :=
  ∀ id s, r.get? id = some s → s.isRefreshable → r.Learns id s

/-! ## Changes that keep the attention -/

theorem isPolling_iff_monitor (s : Sheet) :
    s.isPolling = true ↔ ∃ watch, s.monitor.2 = some (.polling, watch) := by
  unfold Sheet.isPolling Sheet.monitor
  cases s.refresh <;> simp

/-- A sheet keeps its way of learning if its watches stay, and the polls if it needs them. -/
theorem Learns.mono {id : SheetId} {s t : Sheet} (h : r.Learns id s) (same : t.monitor = s.monitor)
    (live : ∀ w, w.sheet = id → r.Live w → r'.Live w)
    (timer : s.isPolling → r.timerEnabled = true → r'.timerEnabled = true) : r'.Learns id t := by
  have location : t.location = s.location := congrArg (·.1) same
  cases h with
  | told number mode there =>
    refine .told number (same ▸ mode) ?_
    rw [location]
    exact live _ rfl there
  | asks watch mode on =>
    exact .asks watch (same ▸ mode) (timer ((isPolling_iff_monitor s).mpr ⟨watch, mode⟩) on)

theorem Learns.of_monitors {id : SheetId} {s t : Sheet} (h : r.Learns id s) (told : t.monitor = s.monitor)
    (same : r'.monitors = r.monitors) (timer : r.timerEnabled = true → r'.timerEnabled = true) :
    r'.Learns id t := by
  have board : r'.board = r.board := congrArg (·.1) same
  refine h.mono told (fun w _ there => ?_) fun _ => timer
  obtain ⟨b, hb, hw⟩ := there
  exact ⟨b, board.trans hb, hw⟩

/-- A sheet that waits to be told, without a watch, does not learn. -/
theorem not_learns_of_waits {id : SheetId} {s : Sheet} (waits : s.monitor.2 = some (.events, none)) :
    ¬ r.Learns id s := by
  rintro (⟨number, mode, -⟩ | ⟨watch, mode, -⟩)
  · exact absurd (waits.symm.trans mode) (by simp)
  · exact absurd (waits.symm.trans mode) (by simp)

theorem Attentive.of_monitors (h : r.Attentive) (same : r'.monitors = r.monitors)
    (timer : r.timerEnabled = true → r'.timerEnabled = true) : r'.Attentive := by
  intro id s hs refreshable
  obtain ⟨t, ht, told⟩ := get?_of_monitors same.symm hs
  rw [Sheet.isRefreshable_eq_monitor, ← told, ← Sheet.isRefreshable_eq_monitor] at refreshable
  exact (h id t ht refreshable).of_monitors told.symm same timer

theorem timerEnabled_of_outline (same : r'.outline = r.outline) :
    r.timerEnabled = true → r'.timerEnabled = true := by
  have timer : r'.timerEnabled = r.timerEnabled := congrArg Outline.timerEnabled same
  rw [timer]
  exact id

theorem Attentive.of_outline (h : r.Attentive) (same : r'.outline = r.outline) : r'.Attentive :=
  h.of_monitors (monitors_of_outline same) (timerEnabled_of_outline same)

/-- The polls end only when no sheet asks. -/
theorem Attentive.disableIdleTimer (h : r.Attentive) : r.disableIdleTimer.Attentive := by
  unfold Repository.disableIdleTimer
  split
  · -- a sheet that asks would have kept the polls from being idle
    rename_i idle
    intro id s hs refreshable
    refine (h id s hs refreshable).mono rfl (fun _ _ there => there) fun polling => ?_
    have asks : r.sheets.entries.any (fun e => e.2.isPolling) = true :=
      List.any_eq_true.mpr ⟨(id, s), Table.mem_entries hs, polling⟩
    exact absurd idle (by simp [asks])
  · exact h

/-! ## Sheets that come and go -/

theorem Attentive.insert (h : r.Attentive) {sheet : Sheet}
    (learns : sheet.isRefreshable → r.Learns ⟨r.nextIndex⟩ sheet) : (r.insert sheet).2.Attentive := by
  intro id s hs refreshable
  rw [get?_insert] at hs
  split at hs
  · rename_i new
    cases hs
    subst new
    exact (learns refreshable).mono rfl (fun _ _ there => there) fun _ on => on
  · exact (h id s hs refreshable).mono rfl (fun _ _ there => there) fun _ on => on

theorem monitor_mapRefresh_of_refreshable {s : Sheet} {f : RefreshState → RefreshState} {mode : Monitoring}
    {watch : Option Nat} (sets : ∀ state, (f state).monitoring = mode ∧ (f state).watch = watch)
    (refreshable : s.isRefreshable) : (s.mapRefresh f).monitor.2 = some (mode, watch) := by
  obtain ⟨state, hs⟩ := Option.isSome_iff_exists.mp refreshable
  unfold Sheet.monitor Sheet.mapRefresh
  simp [hs, sets]

/-- A sheet that is monitored learns, and the others go on to learn. -/
theorem attentive_startMonitoring {id : SheetId} {sheet : Sheet} (loaded : r.get? id = some sheet)
    (refreshable : sheet.isRefreshable)
    (others : ∀ k s, id ≠ k → r.get? k = some s → s.isRefreshable → r.Learns k s) :
    (r.startMonitoring id).Attentive := by
  unfold startMonitoring
  rw [loaded]
  dsimp only
  split
  · rename_i number b' watch
    obtain ⟨b, hb, watch⟩ := Option.bind_eq_some_iff.mp watch
    obtain ⟨rfl, rfl⟩ := WatchBoard.watch?_eq_some watch
    intro k s hs refreshable'
    rw [get?_update] at hs
    split at hs
    · -- the new watch is on the board
      rename_i same
      subst same
      cases (congrArg (Option.map _) loaded).symm.trans hs
      refine .told b.next (monitor_mapRefresh_of_refreshable (fun _ => ⟨rfl, rfl⟩) refreshable) ?_
      exact ⟨_, board_update .., List.mem_append_right _ List.mem_cons_self⟩
    · rename_i other
      refine (others k s other hs refreshable').mono rfl (fun w _ there => ?_) fun _ on => ?_
      · obtain ⟨c, hc, hw⟩ := there
        cases hb.symm.trans hc
        exact ⟨_, board_update .., List.mem_append_left _ hw⟩
      · rw [timerEnabled_update]
        exact on
  · -- no watch is to be had, so the sheet is polled and polls are wanted
    intro k s hs refreshable'
    have hs' : (r.update id _).get? k = some s := hs
    rw [get?_update] at hs'
    split at hs'
    · rename_i same
      subst same
      cases (congrArg (Option.map _) loaded).symm.trans hs'
      exact .asks none (monitor_mapRefresh_of_refreshable (fun _ => ⟨rfl, rfl⟩) refreshable) rfl
    · rename_i other
      refine (others k s other hs' refreshable').mono rfl (fun w _ there => ?_) fun _ _ => rfl
      obtain ⟨c, hc, hw⟩ := there
      exact ⟨c, (board_update ..).trans hc, hw⟩

/-- Where a sheet goes, the others go on to learn: the watch that ends is not theirs. -/
theorem Attentive.discard (h : r.Attentive) (watched : r.Watched) (id : SheetId) :
    (r.discard id).Attentive := by
  intro k s hk refreshable
  rw [get?_discard] at hk
  split at hk
  · cases hk
  rename_i other
  refine (h k s hk refreshable).mono rfl (fun w hw there => ?_) fun _ on => ?_
  · subst hw
    unfold Repository.discard
    split
    · exact there
    · rename_i sheet hs
      -- if its watch ended, the sheet that went held the same one
      refine live_release.mpr ⟨there, fun same => other ?_⟩
      have there' := watched.held id sheet w.number hs same
      exact congrArg Watch.sheet (watched.eq_of_number there' there rfl)
  · rw [timerEnabled_discard]
    exact on

theorem Attentive.unload (h : r.Attentive) (watched : r.Watched) (id : SheetId) :
    (r.unload id).2.Attentive := by
  unfold Repository.unload
  split
  · exact h
  · have discarded : ({ r.discard id with order := r.order.filter (· ≠ id) } : Repository σ).Attentive :=
      (h.discard watched id).of_monitors rfl fun on => on
    have told := discarded.of_outline (outline_emit _ .invalidateAll)
    exact told.disableIdleTimer

theorem attentive_unloadAll (r : Repository σ) : r.unloadAll.Attentive := by
  intro id s hs
  rw [get?_unloadAll] at hs
  cases hs

/-- A sheet that comes without a watch learns if it is polled and polls are wanted, and in no other case. -/
theorem learns_iff_of_free {id : SheetId} {sheet : Sheet} (free : sheet.watch? = none) :
    r.Learns id sheet ↔ sheet.isPolling ∧ r.timerEnabled = true := by
  constructor
  · rintro (⟨number, mode, -⟩ | ⟨watch, mode, on⟩)
    · have held : sheet.holding.2 = some number := by rw [Sheet.holding_eq_monitor, mode]; rfl
      exact absurd (free.symm.trans held) (by simp)
    · exact ⟨(isPolling_iff_monitor sheet).mpr ⟨watch, mode⟩, on⟩
  · rintro ⟨polling, on⟩
    obtain ⟨watch, mode⟩ := (isPolling_iff_monitor sheet).mp polling
    exact .asks watch mode on

/-- Registering keeps a repository attentive if the sheet is not stored, or learns as it comes. -/
theorem Attentive.register_iff (h : r.Attentive) {sheet : Sheet} (free : sheet.watch? = none) :
    (r.register sheet).2.Attentive ↔
      (r.idAt? sheet.location = none → sheet.isRefreshable → sheet.isPolling ∧ r.timerEnabled = true) := by
  unfold register
  cases r.idAt? sheet.location with
  | some id => exact ⟨fun _ vacant => absurd vacant (by simp), fun _ => h⟩
  | none =>
    constructor
    · -- the sheet is stored as it comes, so it must learn as it comes
      intro attentive _ refreshable
      have stored : (r.insert sheet).2.get? ⟨r.nextIndex⟩ = some sheet := by rw [get?_insert, if_pos rfl]
      have learns := attentive ⟨r.nextIndex⟩ sheet stored refreshable
      exact (learns_iff_of_free (r := (r.insert sheet).2) free).mp learns
    · intro asks
      exact h.insert fun refreshable => (learns_iff_of_free free).mpr (asks rfl refreshable)

theorem Attentive.setActive (h : r.Attentive) (id : SheetId) (active : Bool) :
    (r.setActive id active).2.Attentive := by
  refine h.of_monitors (monitors_setActive ..) fun on => ?_
  unfold Repository.setActive
  split
  · exact on
  · split
    · exact on
    · exact (timerEnabled_update ..).trans on

theorem Attentive.setInterval (h : r.Attentive) (interval : Nat) : (r.setInterval interval).Attentive := by
  refine h.of_monitors (monitors_setInterval ..) fun on => ?_
  obtain ⟨_, _, eq⟩ := r.setInterval_eq interval
  rw [eq]
  exact on

theorem Attentive.advance (h : r.Attentive) (milliseconds : Nat) : (r.advance milliseconds).Attentive := by
  refine h.of_monitors (monitors_advance ..) fun on => ?_
  obtain ⟨_, _, eq⟩ := r.advance_eq milliseconds
  rw [eq]
  exact on

variable [Source σ]

theorem Attentive.load (h : r.Attentive) (location : Location) (name group : Option String) :
    (r.load location name group).2.Attentive := by
  have fetched := h.of_outline (outline_fetch r location)
  rcases r.load_cases location name group with ⟨id, -, done⟩ | ⟨-, e, -, done⟩ | ⟨-, content, -, done⟩ <;>
    rw [done]
  · exact h
  · exact fetched
  · exact fetched.insert fun refreshable => absurd refreshable (by simp [Sheet.build, Sheet.of, Sheet.isRefreshable])

theorem Attentive.loadFromBundle (h : r.Attentive) (path : String) (name group : Option String) :
    (r.loadFromBundle path name group).2.Attentive := by
  unfold Repository.loadFromBundle
  split
  · exact h.of_outline rfl
  · rename_i source _
    have asked : ({ r with source := source } : Repository σ).Attentive := h.of_outline rfl
    exact asked.load _ name group

theorem Attentive.loadRefreshable (h : r.Attentive) (location : Location) (name group : Option String) :
    (r.loadRefreshable location name group).2.Attentive := by
  have asked : (r.asked location).Attentive := h.of_outline rfl
  rcases r.loadRefreshable_cases location name group with
    ⟨id, -, done⟩ | ⟨-, -, done⟩ | ⟨-, -, sheet, new, done⟩ <;> rw [done]
  · exact h
  · exact asked
  · have free : sheet.watch? = none := by rw [new]; rfl
    have lasting : sheet.isRefreshable := by rw [new]; rfl
    obtain ⟨s, hs, refreshable, -⟩ := (r.asked location).get?_reload_insert free lasting true
    have same := outline_reload ((r.asked location).insert sheet).2 ⟨r.nextIndex⟩ true
    refine attentive_startMonitoring hs refreshable fun k t other ht refreshable => ?_
    -- the others were there before, and learned
    obtain ⟨u, hu, told⟩ := get?_of_monitors (monitors_of_outline same).symm ht
    rw [Sheet.isRefreshable_eq_monitor, ← told, ← Sheet.isRefreshable_eq_monitor] at refreshable
    rw [get?_insert] at hu
    split at hu
    · rename_i new
      exact absurd new other
    · have learned : ((r.asked location).insert sheet).2.Learns k u :=
        (asked k u hu refreshable).mono rfl (fun _ _ there => there) fun _ on => on
      exact learned.of_monitors told.symm (monitors_of_outline same) (timerEnabled_of_outline same)

theorem Attentive.awaitRequest (h : r.Attentive) (limit : Nat) : (r.awaitRequest limit).2.Attentive := by
  unfold Repository.awaitRequest
  split
  · exact (h.advance _).of_outline (outline_processNext _)
  · exact h.of_outline (outline_processNext r)

/-- Every operation but registering keeps a repository attentive, unless polls are ended by hand. -/
theorem Attentive.perform (h : r.Attentive) (watched : r.Watched) {op : Operation σ}
    (wanted : op ≠ .disableTimer) (other : ∀ sheet, op ≠ .register sheet) : (r.perform op).Attentive := by
  cases op with
  | load location name group => exact h.load location name group
  | loadFromBundle path name group => exact h.loadFromBundle path name group
  | loadRefreshable location name group => exact h.loadRefreshable location name group
  | register sheet => exact absurd rfl (other sheet)
  | setActive id active => exact h.setActive id active
  | reload id force => exact h.of_outline (outline_reload ..)
  | reloadAll force => exact h.of_outline (outline_reloadAll ..)
  | processPending => exact h.of_outline (outline_processPending r)
  | awaitRequest limit => exact h.awaitRequest limit
  | unload id => exact h.unload watched id
  | unloadAll => exact attentive_unloadAll r
  | enableTimer => exact h.of_monitors rfl fun _ => rfl
  | disableTimer => exact absurd rfl wanted
  | setInterval interval => exact h.setInterval interval
  | advance milliseconds => exact h.advance milliseconds
  | subscribe | unsubscribe _ | openChannel | drain _ | hangUp _ | report _ | changeSource _ =>
    exact h.of_outline rfl

/-- **Attention is lost by registering alone**: by storing a refreshable sheet that is not polled, or one that
is polled while no polls are wanted. -/
theorem Attentive.perform_iff (h : r.Attentive) (watched : r.Watched) {op : Operation σ}
    (wanted : op ≠ .disableTimer) (free : ∀ sheet, op = .register sheet → sheet.watch? = none) :
    (r.perform op).Attentive ↔ ∀ sheet, op = .register sheet → r.idAt? sheet.location = none →
      sheet.isRefreshable → sheet.isPolling ∧ r.timerEnabled = true := by
  by_cases registers : ∃ sheet, op = .register sheet
  · obtain ⟨sheet, rfl⟩ := registers
    rw [show r.perform (.register sheet) = (r.register sheet).2 from rfl, h.register_iff (free sheet rfl)]
    constructor
    · rintro learns _ same
      cases same
      exact learns
    · exact fun learns => learns sheet rfl
  · have other : ∀ sheet, op ≠ .register sheet := fun sheet same => registers ⟨sheet, same⟩
    refine ⟨fun _ sheet same => absurd same (other sheet), fun _ => h.perform watched wanted other⟩

end Repository

/-! ## A sheet keeps its way of learning -/

namespace Repository

variable {σ : Type} {r r' : Repository σ}

theorem get?_startMonitoring_of_ne {id k : SheetId} (other : id ≠ k) :
    (r.startMonitoring id).get? k = r.get? k := by
  unfold startMonitoring
  split
  · rfl
  · split
    · rw [get?_update, if_neg other]
      rfl
    · show (r.update id _).get? k = _
      rw [get?_update, if_neg other]

variable [Source σ]

theorem Indexed.monitor_load (h : r.Indexed) {id : SheetId} {s : Sheet} (loaded : r.get? id = some s)
    (location : Location) (name group : Option String) :
    ∃ t, (r.load location name group).2.get? id = some t ∧ t.monitor = s.monitor := by
  have fetched := outline_fetch r location
  obtain ⟨t, ht, told⟩ := get?_of_monitors (monitors_of_outline fetched) loaded
  rcases r.load_cases location name group with ⟨_, -, done⟩ | ⟨-, e, -, done⟩ | ⟨-, content, -, done⟩ <;>
    rw [done]
  · exact ⟨s, loaded, rfl⟩
  · exact ⟨t, ht, told⟩
  · exact ⟨t, (h.of_places (places_of_outline fetched)).get?_insert_of_loaded _ ht, told⟩

theorem Indexed.monitor_loadFromBundle (h : r.Indexed) {id : SheetId} {s : Sheet}
    (loaded : r.get? id = some s) (path : String) (name group : Option String) :
    ∃ t, (r.loadFromBundle path name group).2.get? id = some t ∧ t.monitor = s.monitor := by
  unfold Repository.loadFromBundle
  split
  · exact ⟨s, loaded, rfl⟩
  · rename_i source _
    have asked : ({ r with source := source } : Repository σ).Indexed := h.of_places rfl
    exact asked.monitor_load loaded _ name group

theorem Indexed.monitor_loadRefreshable (h : r.Indexed) {id : SheetId} {s : Sheet}
    (loaded : r.get? id = some s) (location : Location) (name group : Option String) :
    ∃ t, (r.loadRefreshable location name group).2.get? id = some t ∧ t.monitor = s.monitor := by
  rcases r.loadRefreshable_cases location name group with
    ⟨_, -, done⟩ | ⟨-, -, done⟩ | ⟨-, -, sheet, new, done⟩ <;> rw [done]
  · exact ⟨s, loaded, rfl⟩
  · exact ⟨s, loaded, rfl⟩
  · have asked : (r.asked location).Indexed := h.of_places rfl
    have inserted := asked.get?_insert_of_loaded sheet loaded
    have same := outline_reload ((r.asked location).insert sheet).2 ⟨r.nextIndex⟩ true
    obtain ⟨t, ht, told⟩ := get?_of_monitors (monitors_of_outline same) inserted
    refine ⟨t, ?_, told⟩
    -- the sheet that is monitored is the new one
    rw [get?_startMonitoring_of_ne]
    · exact ht
    · rintro rfl
      exact absurd (h.get?_next.symm.trans loaded) (by simp)

theorem monitor_awaitRequest {id : SheetId} {s : Sheet} (loaded : r.get? id = some s) (limit : Nat) :
    ∃ t, (r.awaitRequest limit).2.get? id = some t ∧ t.monitor = s.monitor := by
  unfold Repository.awaitRequest
  split
  · have advanced := monitors_advance r (r.untilNextPoll limit)
    exact get?_of_monitors ((monitors_of_outline (outline_processNext _)).trans advanced) loaded
  · exact get?_of_monitors (monitors_of_outline (outline_processNext r)) loaded

/-- No operation changes how a sheet learns, once it is loaded, until it is unloaded. -/
theorem Indexed.monitor_perform (h : r.Indexed) {op : Operation σ} {id : SheetId} {s : Sheet}
    (loaded : r.get? id = some s) (stays : op ≠ .unload id) (stays' : op ≠ .unloadAll) :
    ∃ t, (r.perform op).get? id = some t ∧ t.monitor = s.monitor := by
  cases op with
  | load location name group => exact h.monitor_load loaded ..
  | loadFromBundle path name group => exact h.monitor_loadFromBundle loaded ..
  | loadRefreshable location name group => exact h.monitor_loadRefreshable loaded ..
  | register sheet =>
    show ∃ t, (r.register sheet).2.get? id = some t ∧ t.monitor = s.monitor
    unfold Repository.register
    split
    · exact ⟨s, loaded, rfl⟩
    · exact ⟨s, h.get?_insert_of_loaded sheet loaded, rfl⟩
  | setActive id active => exact get?_of_monitors (monitors_setActive ..) loaded
  | reload id force => exact get?_of_monitors (monitors_of_outline (outline_reload ..)) loaded
  | reloadAll force => exact get?_of_monitors (monitors_of_outline (outline_reloadAll ..)) loaded
  | processPending => exact get?_of_monitors (monitors_of_outline (outline_processPending r)) loaded
  | awaitRequest limit => exact monitor_awaitRequest loaded limit
  | unload k =>
    have other : k ≠ id := fun same => stays (same ▸ rfl)
    exact ⟨s, (get?_unload r k id).trans ((if_neg other).trans loaded), rfl⟩
  | unloadAll => exact absurd rfl stays'
  | setInterval interval => exact get?_of_monitors (monitors_setInterval ..) loaded
  | advance milliseconds => exact get?_of_monitors (monitors_advance ..) loaded
  | enableTimer | disableTimer | subscribe | unsubscribe _ | openChannel | drain _ | hangUp _ | report _
  | changeSource _ => exact ⟨s, loaded, rfl⟩

end Repository

/-! ## Runs -/

namespace Owner

variable {σ : Type} [Source σ]

/-- Polls are not ended by hand, and a sheet that is registered and stored can learn of changes as it comes. -/
def Attending (o : Owner σ) : Operation σ → Prop
  | .disableTimer => False
  | .register sheet => sheet.watch? = none ∧
      (o.repository.idAt? sheet.location = none → sheet.isRefreshable →
        sheet.isPolling ∧ o.repository.timerEnabled = true)
  | _ => True

/-- Wherever such a run leads, each refreshable sheet can learn of changes. -/
theorem Reaches.attentive {source : σ} {parser : String → Except ParseError Content}
    {board : Option WatchBoard} {config : RefreshConfig} {hasClock : Bool} {o : Owner σ}
    (run : Reaches Attending (new source parser board config hasClock) o)
    (clean : ∀ b, board = some b → b.watches = []) : o.repository.Attentive := by
  have all : o.repository.Indexed ∧ o.repository.Watched ∧ o.repository.Attentive := by
    refine run.invariant (I := fun o => o.repository.Indexed ∧ o.repository.Watched ∧ o.repository.Attentive)
      ?_ ?_
    · refine ⟨Repository.indexed_of_empty rfl fun _ => rfl, ?_, fun id s loaded => ?_⟩
      · exact Repository.watched_of_empty clean fun _ => rfl
      · cases loaded
    · rintro o op attending ⟨indexed, watched, attentive⟩
      have free : ∀ sheet, op = .register sheet → sheet.watch? = none := by
        rintro sheet rfl
        exact attending.1
      have wanted : op ≠ .disableTimer := by
        rintro rfl
        exact attending
      refine ⟨indexed.perform op, watched.perform indexed op free, ?_⟩
      refine (attentive.perform_iff watched wanted free).mpr ?_
      rintro sheet rfl
      exact attending.2
  exact all.2.2

/-- A sheet that cannot learn of changes does not begin to be told of them: until it is unloaded, it waits for
a watch that nobody puts on. -/
theorem Reaches.keeps_waiting {start o : Owner σ} {id : SheetId} {s : Sheet}
    (run : Reaches (fun _ op => op ≠ .unload id ∧ op ≠ .unloadAll) start o)
    (indexed : start.repository.Indexed) (loaded : start.repository.get? id = some s)
    (waits : s.monitor.2 = some (.events, none)) :
    ∃ t, o.repository.get? id = some t ∧ ¬ o.repository.Learns id t := by
  -- the invariant carries the index, since a new sheet must not take the place of this one
  have kept : o.repository.Indexed ∧ ∃ t, o.repository.get? id = some t ∧ t.monitor = s.monitor := by
    refine run.invariant (I := fun o => o.repository.Indexed ∧
      ∃ t, o.repository.get? id = some t ∧ t.monitor = s.monitor) ⟨indexed, s, loaded, rfl⟩ ?_
    rintro o op ⟨stays, stays'⟩ ⟨indexed, t, ht, told⟩
    obtain ⟨u, hu, told'⟩ := indexed.monitor_perform ht stays stays'
    exact ⟨indexed.perform op, u, hu, told'.trans told⟩
  obtain ⟨-, t, ht, told⟩ := kept
  rw [← told] at waits
  exact ⟨t, ht, Repository.not_learns_of_waits waits⟩

/-- Polls are not ended by hand, and what is registered was unloaded before. -/
def Returning (o : Owner σ) : Operation σ → Prop
  | .disableTimer => False
  | .register sheet => sheet ∈ o.unloaded
  | _ => True

/-- An owner that loads a watched sheet, unloads it, and registers what came back. -/
def forgotten : Owner MemoryFiles :=
  let start : Owner MemoryFiles := .new .empty (fun _ => .ok .empty) (some (.empty none)) .standard true
  let loaded := (start.perform (.changeSource (·.write menu "a"))).perform (.loadRefreshable menu none none)
  let unloaded := loaded.perform (.unload ⟨0⟩)
  unloaded.perform (.register (unloaded.unloaded.headD (.of menu .empty)))

/-- The sheet came back without its watch, and gets none. -/
theorem forgotten_not_attentive :
    Reaches Returning (new .empty (fun _ => .ok .empty) (some (.empty none)) .standard true) forgotten ∧
      ¬ forgotten.repository.Attentive := by
  refine ⟨?_, fun attentive => ?_⟩
  · exact .step (.step (.step (.step .refl trivial) trivial) trivial) (List.mem_singleton_self _)
  · have loaded : ∃ s, forgotten.repository.get? ⟨1⟩ = some s ∧ s.isRefreshable ∧
        s.monitor.2 = some (.events, none) := ⟨_, rfl, rfl, rfl⟩
    obtain ⟨s, loaded, refreshable, waits⟩ := loaded
    exact Repository.not_learns_of_waits waits (attentive ⟨1⟩ s loaded refreshable)

end Owner

end Stylebook
