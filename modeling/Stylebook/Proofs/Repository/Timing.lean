import Stylebook.Proofs.Repository.Monitoring
import Stylebook.Proofs.Repository.Refreshes

/-!
# When the timer runs

Of everything that a repository is made of, its timer depends on four things: whether there is a clock, whether
polls are wanted, the refresh interval, and the period of the timer that runs. `Timing` is these four, and it is a
small machine of its own with four ways to turn. Whatever happens to a repository turns it one of these ways or
leaves it alone (`turns_perform`), so what all of them keep holds wherever a run leads: with a clock, a timer runs
if and only if polls are wanted and the interval is not zero, and its period is the interval (`Timing.Punctual`).

Polls stop being wanted in two ways: the owner ends them, or the last sheet that is polled goes. So a polled sheet
that stays keeps them up, if only the owner does not end them (`Reaches.timer_follows`).
-/

set_option autoImplicit false

namespace Stylebook

/-! ## The machine -/

/-- What the timer of a repository goes by. -/
structure Timing where
  hasClock : Bool
  wanted : Bool
  interval : Nat
  /-- The period of the timer, if one runs. -/
  period? : Option Nat

namespace Timing

/-- The period of a timer that is started now. -/
def fresh? (hasClock : Bool) (interval : Nat) : Option Nat :=
  if hasClock = true ∧ 0 < interval then some interval else none

def enable (t : Timing) : Timing :=
  { t with wanted := true, period? := t.period? <|> fresh? t.hasClock t.interval }

def disable (t : Timing) : Timing :=
  { t with wanted := false, period? := none }

def setInterval (t : Timing) (interval : Nat) : Timing :=
  { t with
    interval := interval
    period? := if t.wanted then fresh? t.hasClock interval else t.period? }

/-- The ways to turn; polls may end only for a reason. -/
inductive Turns (reason : Prop) (t : Timing) : Timing → Prop where
  | keep : Turns reason t t
  | enable : Turns reason t t.enable
  | disable (ended : reason) : Turns reason t t.disable
  | setInterval (interval : Nat) : Turns reason t (t.setInterval interval)

theorem Turns.imp {reason reason' : Prop} {t t' : Timing} (turns : t.Turns reason t') (h : reason → reason') :
    t.Turns reason' t' := by
  cases turns with
  | keep => exact .keep
  | enable => exact .enable
  | disable ended => exact .disable (h ended)
  | setInterval interval => exact .setInterval interval

/-- Without a reason, polls go on being wanted. -/
theorem Turns.wanted {reason : Prop} {t t' : Timing} (turns : t.Turns reason t') (none : ¬ reason)
    (wanted : t.wanted = true) : t'.wanted = true := by
  cases turns with
  | enable => rfl
  | disable ended => exact absurd ended none
  | keep | setInterval interval => exact wanted

/-- There is a clock, and a timer with the right period runs just when one should. -/
structure Punctual (t : Timing) : Prop where
  clock : t.hasClock = true
  period : t.period? = if t.wanted = true ∧ 0 < t.interval then some t.interval else none

theorem Punctual.runs_iff {t : Timing} (h : t.Punctual) :
    t.period?.isSome = true ↔ t.wanted = true ∧ t.interval ≠ 0 := by
  rw [h.period, ← Nat.pos_iff_ne_zero]
  split <;> simp_all

theorem Punctual.period_eq {t : Timing} (h : t.Punctual) {period : Nat} (runs : t.period? = some period) :
    period = t.interval := by
  have due := h.period
  rw [runs] at due
  split at due
  · exact Option.some.inj due
  · cases due

theorem Punctual.turns {reason : Prop} {t t' : Timing} (h : t.Punctual) (turns : t.Turns reason t') :
    t'.Punctual := by
  have clock := h.clock
  cases turns with
  | keep => exact h
  | enable =>
    -- a timer that runs goes on, and has the right period already
    refine ⟨clock, ?_⟩
    simp only [enable, fresh?, h.period, clock]
    by_cases wanted : t.wanted = true <;> by_cases positive : 0 < t.interval <;> simp [wanted, positive]
  | disable => exact ⟨clock, by simp [disable]⟩
  | setInterval interval =>
    refine ⟨clock, ?_⟩
    simp only [setInterval, fresh?, clock]
    by_cases wanted : t.wanted = true
    · simp [wanted]
    · simp [wanted, h.period]

end Timing

/-- A timer keeps its period while it fires. -/
theorem PollTimer.period_fire (t : PollTimer) (now : Nat) : (t.fire now).2.period = t.period := by
  fun_induction fire t now with
  | case1 t late count t' fired ih => simpa [fired] using ih
  | case2 => rfl

theorem PollTimer.period_start? (period now : Nat) :
    (start? period now).map (·.period) = if 0 < period then some period else none := by
  unfold start?
  split <;> simp_all

namespace Repository

variable {σ : Type} {r r' : Repository σ}

def timing (r : Repository σ) : Timing :=
  ⟨r.hasClock, r.timerEnabled, r.config.refreshInterval, r.timer.map (·.period)⟩

/-! ## What leaves the timing alone -/

theorem timing_of_outline (same : r'.outline = r.outline) : r'.timing = r.timing := by
  have clock : r'.hasClock = r.hasClock := congrArg Outline.hasClock same
  have wanted : r'.timerEnabled = r.timerEnabled := congrArg Outline.timerEnabled same
  have config : r'.config = r.config := congrArg Outline.config same
  have timer : r'.timer = r.timer := congrArg Outline.timer same
  unfold timing
  rw [clock, wanted, config, timer]

theorem timing_update (r : Repository σ) (id : SheetId) (f : Sheet → Sheet) :
    (r.update id f).timing = r.timing := by
  unfold update
  split <;> rfl

theorem timing_setActive (r : Repository σ) (id : SheetId) (active : Bool) :
    (r.setActive id active).2.timing = r.timing := by
  unfold setActive
  split
  · rfl
  split
  · rfl
  · exact timing_update ..

theorem timing_register (r : Repository σ) (sheet : Sheet) : (r.register sheet).2.timing = r.timing := by
  unfold register
  split <;> rfl

theorem timing_release (r : Repository σ) (sheet : Sheet) : (r.release sheet).timing = r.timing := by
  unfold release
  split <;> rfl

theorem timing_discard (r : Repository σ) (id : SheetId) : (r.discard id).timing = r.timing := by
  unfold discard
  split
  · rfl
  · exact timing_release ..

theorem timing_foldl {α : Type} {f : Repository σ → α → Repository σ} (kept : ∀ r a, (f r a).timing = r.timing)
    (row : List α) (r : Repository σ) : (row.foldl f r).timing = r.timing := by
  induction row generalizing r with
  | nil => rfl
  | cons a rest ih => exact (ih _).trans (kept r a)

theorem timing_advance (r : Repository σ) (milliseconds : Nat) :
    (r.advance milliseconds).timing = r.timing := by
  unfold advance
  dsimp only
  split <;> rename_i running
  · rfl
  · simp [timing, running, PollTimer.period_fire]

/-! ## What turns it -/

theorem period_newTimer? (r : Repository σ) :
    r.newTimer?.map (·.period) = Timing.fresh? r.hasClock r.config.refreshInterval := by
  unfold newTimer? Timing.fresh?
  split <;> rename_i clock <;> simp [clock, PollTimer.period_start?]

theorem timing_enableTimer (r : Repository σ) : r.enableTimer.timing = r.timing.enable := by
  unfold enableTimer timing Timing.enable
  cases r.timer <;> simp [period_newTimer?]

theorem timing_setInterval (r : Repository σ) (interval : Nat) :
    (r.setInterval interval).timing = r.timing.setInterval interval := by
  unfold setInterval Timing.setInterval timing
  by_cases wanted : r.timerEnabled = true <;> simp [wanted, period_newTimer?]

/-- No sheet is polled. -/
def Idle (r : Repository σ) : Prop :=
  ∀ id s, r.get? id = some s → s.isPolling = false

theorem turns_disableIdleTimer (r : Repository σ) :
    r.timing.Turns r.disableIdleTimer.Idle r.disableIdleTimer.timing := by
  unfold disableIdleTimer
  split
  · rename_i idle
    refine .disable fun id s loaded => ?_
    have quiet := ((Bool.and_eq_true _ _).mp idle).2
    rw [Bool.not_eq_true', List.any_eq_false] at quiet
    exact Bool.eq_false_iff.mpr (quiet (id, s) (Table.mem_entries loaded))
  · exact .keep

theorem turns_startMonitoring (r : Repository σ) (id : SheetId) :
    r.timing.Turns False (r.startMonitoring id).timing := by
  unfold startMonitoring
  split
  · exact .keep
  split
  · rw [timing_update]
    exact .keep
  · rw [timing_enableTimer, timing_update]
    exact .enable

theorem turns_unload (r : Repository σ) (id : SheetId) :
    r.timing.Turns (r.unload id).2.Idle (r.unload id).2.timing := by
  unfold unload
  split
  · exact .keep
  · have gone : ({ r.discard id with order := r.order.filter (· ≠ id) }.emit .invalidateAll).timing
        = r.timing := timing_discard r id
    rw [← gone]
    exact turns_disableIdleTimer _

theorem turns_unloadAll (r : Repository σ) : r.timing.Turns r.unloadAll.Idle r.unloadAll.timing := by
  have released := timing_foldl (fun r (e : SheetId × Sheet) => timing_release r e.2)
    (r.order.foldl discard r).sheets.entries (r.order.foldl discard r)
  have gone : ({ (r.order.foldl discard r).clear with order := [] }.emit .invalidateAll).timing = r.timing :=
    released.trans (timing_foldl timing_discard r.order r)
  rw [← gone]
  exact turns_disableIdleTimer _

variable [Source σ]

theorem timing_load (r : Repository σ) (location : Location) (name group : Option String) :
    (r.load location name group).2.timing = r.timing := by
  have fetched := timing_of_outline (outline_fetch r location)
  rcases r.load_cases location name group with ⟨_, -, done⟩ | ⟨-, _, -, done⟩ | ⟨-, _, -, done⟩ <;> rw [done]
  · exact fetched
  · exact fetched

theorem timing_loadFromBundle (r : Repository σ) (path : String) (name group : Option String) :
    (r.loadFromBundle path name group).2.timing = r.timing := by
  unfold loadFromBundle
  split
  · rfl
  · exact timing_load ..

theorem turns_loadRefreshable (r : Repository σ) (location : Location) (name group : Option String) :
    r.timing.Turns False (r.loadRefreshable location name group).2.timing := by
  rcases r.loadRefreshable_cases location name group with ⟨_, -, done⟩ | ⟨-, -, done⟩ | ⟨-, -, sheet, -, done⟩ <;>
    rw [done]
  · exact .keep
  · exact .keep
  · have reloaded := timing_of_outline (outline_reload ((r.asked location).insert sheet).2 ⟨r.nextIndex⟩ true)
    have same : (((r.asked location).insert sheet).2.reload ⟨r.nextIndex⟩ true).2.timing = r.timing := reloaded
    rw [← same]
    exact turns_startMonitoring ..

/-- **Whatever happens turns the timing in one of four ways**, or leaves it alone; and polls end only if the owner
ends them or no sheet is polled any more. -/
theorem turns_perform (r : Repository σ) (op : Operation σ) :
    r.timing.Turns (op = .disableTimer ∨ (r.perform op).Idle) (r.perform op).timing := by
  have kept {reason : Prop} {r' : Repository σ} (same : r'.timing = r.timing) : r.timing.Turns reason r'.timing :=
    same ▸ .keep
  cases op with
  | load location name group => exact kept (timing_load ..)
  | loadFromBundle path name group => exact kept (timing_loadFromBundle ..)
  | loadRefreshable location name group => exact (turns_loadRefreshable ..).imp False.elim
  | register sheet => exact kept (timing_register ..)
  | setActive id active => exact kept (timing_setActive ..)
  | reload id force => exact kept (timing_of_outline (outline_reload ..))
  | reloadAll force => exact kept (timing_of_outline (outline_reloadAll ..))
  | processPending => exact kept (timing_of_outline (outline_processPending r))
  | awaitRequest limit =>
    refine kept ?_
    show (r.awaitRequest limit).2.timing = r.timing
    rw [awaitRequest_eq, timing_of_outline (outline_processNext _)]
    unfold waiting
    split
    · exact timing_advance ..
    · rfl
  | unload id => exact (turns_unload r id).imp .inr
  | unloadAll => exact (turns_unloadAll r).imp .inr
  | enableTimer => exact timing_enableTimer r ▸ .enable
  | disableTimer => exact .disable (.inl rfl)
  | setInterval interval => exact timing_setInterval r interval ▸ .setInterval interval
  | advance milliseconds => exact kept (timing_advance ..)
  | subscribe | unsubscribe _ | openChannel | drain _ | hangUp _ | report _ | changeSource _ => exact .keep

/-! ## A polled sheet keeps the polls up -/

omit [Source σ] in
/-- A sheet that is polled from now on has polls wanted. -/
theorem timerEnabled_startMonitoring {id : SheetId} {s : Sheet} (loaded : (r.startMonitoring id).get? id = some s)
    (polled : s.isPolling = true) (present : (r.get? id).isSome) : (r.startMonitoring id).timerEnabled = true := by
  obtain ⟨t, before⟩ := Option.isSome_iff_exists.mp present
  unfold startMonitoring at loaded ⊢
  rw [before] at loaded ⊢
  dsimp only at loaded ⊢
  split
  · -- the sheet is told of changes, so it is not polled
    rename_i watched
    simp only [watched] at loaded
    rw [get?_update, if_pos rfl] at loaded
    obtain ⟨u, -, rfl⟩ := Option.map_eq_some_iff.mp loaded
    cases refresh : u.refresh <;> simp [Sheet.isPolling, Sheet.mapRefresh, refresh] at polled
  · rfl

/-- A load that stores a sheet to be polled has polls wanted. -/
theorem timerEnabled_loadRefreshable {location : Location} {name group : Option String} {id : SheetId} {s : Sheet}
    (vacant : r.idAt? location = none) (stored : (r.loadRefreshable location name group).1 = .ok id)
    (loaded : (r.loadRefreshable location name group).2.get? id = some s) (polled : s.isPolling = true) :
    (r.loadRefreshable location name group).2.timerEnabled = true := by
  rcases r.loadRefreshable_cases location name group with
    ⟨_, found, -⟩ | ⟨-, -, done⟩ | ⟨-, -, sheet, -, done⟩
  · exact absurd (vacant.symm.trans found) (by simp)
  · rw [done] at stored
    cases stored
  · rw [done] at stored loaded ⊢
    cases stored
    refine timerEnabled_startMonitoring loaded polled ?_
    rw [isSome_of_outline (outline_reload ..), get?_insert]
    exact congrArg Option.isSome (if_pos rfl)

end Repository

/-! ## Runs -/

namespace Owner

variable {σ : Type} [Source σ]

/-- The sheet under an identifier stays loaded, and the owner does not end the polls. -/
def Keeping (id : SheetId) (o : Owner σ) (op : Operation σ) : Prop :=
  op ≠ .disableTimer ∧ ((o.perform op).repository.get? id).isSome

/-- A sheet that is polled and stays keeps the polls up, by induction on the run. -/
theorem Reaches.polls_wanted {start o : Owner σ} {id : SheetId} {s : Sheet} (run : Reaches (Keeping id) start o)
    (indexed : start.repository.Indexed) (loaded : start.repository.get? id = some s)
    (polled : s.isPolling = true) (wanted : start.repository.timerEnabled = true) :
    o.repository.timerEnabled = true := by
  let I (o : Owner σ) : Prop := o.repository.Indexed ∧
    (∃ t, o.repository.get? id = some t ∧ t.isPolling = true) ∧ o.repository.timerEnabled = true
  have kept : I o := by
    refine run.invariant (I := I) ⟨indexed, ⟨s, loaded, polled⟩, wanted⟩ ?_
    rintro o op ⟨owner, stays⟩ ⟨indexed, ⟨t, ht, polled⟩, wanted⟩
    have other : op ≠ .unload id ∧ op ≠ .unloadAll := by
      constructor <;> rintro rfl <;> simp [perform, Repository.perform] at stays
    obtain ⟨u, hu, told⟩ := indexed.monitor_perform ht other.1 other.2
    have polled' : u.isPolling = true := by
      obtain ⟨watch, mode⟩ := (Repository.isPolling_iff_monitor t).mp polled
      exact (Repository.isPolling_iff_monitor u).mpr ⟨watch, told ▸ mode⟩
    have busy : ¬ (op = .disableTimer ∨ (o.repository.perform op).Idle) := by
      rintro (ended | idle)
      · exact owner ended
      · exact absurd polled' (by simp [idle id u hu])
    exact ⟨indexed.perform op, ⟨u, hu, polled'⟩, (o.repository.turns_perform op).wanted busy wanted⟩
  exact kept.2.2

theorem Reaches.punctual {source : σ} {parser : String → Except ParseError Content} {board : Option WatchBoard}
    {config : RefreshConfig} {o : Owner σ}
    (run : Reaches (fun _ _ => True) (new source parser board config true) o) :
    o.repository.timing.Punctual := by
  refine run.invariant (I := fun o => o.repository.timing.Punctual) ⟨rfl, rfl⟩ ?_
  exact fun o op _ punctual => punctual.turns (o.repository.turns_perform op)

/-- **With a clock, the timer follows the settings.** Wherever a run leads, a timer runs if and only if polls are
wanted and the interval is not zero, and its period is the interval. And after a refreshable load has stored a sheet
that is polled, polls are wanted for as long as the sheet stays and the owner does not end them. -/
theorem Reaches.timer_follows {source : σ} {parser : String → Except ParseError Content}
    {board : Option WatchBoard} {config : RefreshConfig} {o : Owner σ}
    (run : Reaches (fun _ _ => True) (new source parser board config true) o) :
    let r := o.repository
    (r.timerRunning = true ↔ r.timerEnabled = true ∧ r.config.refreshInterval ≠ 0) ∧
    (∀ timer, r.timer = some timer → timer.period = r.config.refreshInterval) ∧
    ∀ location name group id s o',
      r.idAt? location = none → (r.loadRefreshable location name group).1 = .ok id →
      let stored := o.perform (.loadRefreshable location name group)
      stored.repository.get? id = some s → s.isPolling = true →
      Reaches (Keeping id) stored o' → o'.repository.timerEnabled = true := by
  intro r
  have punctual : r.timing.Punctual := run.punctual
  refine ⟨?_, fun timer runs => ?_, ?_⟩
  · have runs := punctual.runs_iff
    rwa [show r.timing.period?.isSome = r.timerRunning from Option.isSome_map] at runs
  · exact punctual.period_eq (by simp [Repository.timing, runs])
  · intro location name group id s o' vacant answer stored loaded polled run'
    have indexed : stored.repository.Indexed := run.indexed.perform (.loadRefreshable location name group)
    exact run'.polls_wanted indexed loaded polled
      (Repository.timerEnabled_loadRefreshable vacant answer loaded polled)

/-- An owner whose polls are wanted while the interval is zero. -/
def dormant : Owner MemoryFiles :=
  let files := (MemoryFiles.empty.write menu "a").write ⟨"mem://other.css"⟩ "b"
  (new files (fun _ => .ok .empty) none ⟨0, 30000⟩ true).perform .enableTimer

/-- The owner later: a polled sheet is stored, the interval is set, time passes, and another sheet comes and goes. -/
def awakened : Owner MemoryFiles :=
  let stored := dormant.perform (.loadRefreshable menu none none)
  (((stored.perform (.setInterval 500)).perform (.advance 700)).perform
    (.loadRefreshable ⟨"mem://other.css"⟩ none none)).perform (.unload ⟨1⟩)

/-- No timer runs while the interval is zero. One runs when it is set, and goes on while the polled sheet stays. -/
theorem timer_follows_awakened :
    dormant.repository.timerRunning = false ∧ awakened.repository.timerRunning = true ∧
      ∀ timer, awakened.repository.timer = some timer → timer.period = 500 := by
  have start : Reaches (fun _ _ => True) (new _ (fun _ => .ok .empty) none ⟨0, 30000⟩ true) dormant :=
    .step .refl trivial
  have run : Reaches (fun _ _ => True) (new _ (fun _ => .ok .empty) none ⟨0, 30000⟩ true) awakened :=
    .step (.step (.step (.step (.step start trivial) trivial) trivial) trivial) trivial
  obtain ⟨runs, period, -⟩ := run.timer_follows
  obtain ⟨-, -, keeps⟩ := start.timer_follows
  have loaded : ∃ s, (dormant.perform (.loadRefreshable menu none none)).repository.get? ⟨0⟩ = some s ∧
      s.isPolling = true := ⟨_, rfl, rfl⟩
  obtain ⟨s, loaded, polled⟩ := loaded
  have stays : Reaches (Keeping ⟨0⟩) (dormant.perform (.loadRefreshable menu none none)) awakened :=
    .step (.step (.step (.step .refl ⟨by simp, rfl⟩) ⟨by simp, rfl⟩) ⟨by simp, rfl⟩) ⟨by simp, rfl⟩
  have wanted := keeps menu none none ⟨0⟩ s awakened rfl rfl loaded polled stays
  exact ⟨rfl, runs.mpr ⟨wanted, by decide⟩, period⟩

end Owner

end Stylebook
