import Mathlib.Data.List.Induction
import Stylebook.Proofs.Repository.Attempts

/-!
# Runs with their history

What a sheet records about its last failure is the trace of the attempts that were made at it. To say so of runs,
`Chronicle` keeps the attempts at each sheet beside the repository. A sheet that is unloaded takes its history with
it, and brings it back if it is registered again; a sheet that is loaded has none. `Recounts` are the runs with
their history: they are the runs of the owner, each with one history (`Recounts.reaches`, `recounts_of_reaches`).

`Sheet.Recalls` is the invariant. It relates what is recorded to the history, and it is kept by an attempt, provided
that polls which are not forced leave out the sheet while it backs off (`Recalls.after`). The rest is bookkeeping: most
operations are idle, and leave records and histories alone, and those that load a sheet let it come with a record
that agrees with what it brings.
-/

set_option autoImplicit false

namespace Stylebook

/-! ## The last failure -/

/-- When the source of the sheet last failed to be read, as recorded. -/
def Sheet.failedAt? (s : Sheet) : Option Nat :=
  s.refresh.bind (·.failedAt)

/-- All that the record of a failure depends on. -/
def Sheet.lapse (s : Sheet) : Bool × Option Nat :=
  (s.isRefreshable, s.failedAt?)

namespace Attempt

variable {parser : String → Except ParseError Content} {a : Attempt} {history : List Attempt} {retry : Nat}

/-- The source was asked for its text, and could not be read. -/
def isLost (a : Attempt) : Bool :=
  a.answer.any (·.isLost)

/-- What is recorded after an attempt, if `last` was recorded before. -/
def failure (last : Option Nat) (a : Attempt) : Option Nat :=
  match a.answer with
  | none => last
  | some given => if given.isLost then some a.time else none

def lastFailure (history : List Attempt) : Option Nat :=
  history.foldl failure none

/-- The last attempt that did not end as unchanged was at the time `t`, and the source could not be read. -/
def LastLost (parser : String → Except ParseError Content) (history : List Attempt) (t : Nat) : Prop :=
  ∃ before a after, history = before ++ a :: after ∧ a.isLost = true ∧ a.time = t ∧
    ∀ b ∈ after, b.outcome parser = .unchanged

/-- Each attempt that was made by a poll, and not forced, comes so long after the failure that was recorded. -/
def Spaced (retry : Nat) (history : List Attempt) : Prop :=
  ∀ before b after, history = before ++ b :: after → b.occasion = .poll false →
    ∀ t, lastFailure before = some t → t + retry ≤ b.time

theorem outcome_eq_unchanged : a.outcome parser = .unchanged ↔ a.answer = none := by
  cases answered : a.answer with
  | none => simp [outcome_of_none answered]
  | some given => simp [outcome_of_some answered, Outcome.ofFetch_ne_unchanged]

theorem failure_of_none (last : Option Nat) (unread : a.answer = none) : failure last a = last := by
  simp [failure, unread]

theorem failure_of_some (last : Option Nat) {given : Answer} (read : a.answer = some given) :
    failure last a = if a.isLost then some a.time else none := by
  simp [failure, isLost, read]

theorem lastFailure_concat (history : List Attempt) (a : Attempt) :
    lastFailure (history ++ [a]) = failure (lastFailure history) a := by
  simp [lastFailure]

/-- An item of a row is its last one, or stands before it. -/
theorem concat_eq_append_cons {α : Type} {row before after : List α} {x a : α}
    (same : row ++ [x] = before ++ a :: after) :
    (after = [] ∧ before = row ∧ a = x) ∨ ∃ rest, after = rest ++ [x] ∧ row = before ++ a :: rest := by
  rcases List.eq_nil_or_concat after with rfl | ⟨rest, y, rfl⟩
  · obtain ⟨front, last⟩ := List.append_inj' same rfl
    exact .inl ⟨rfl, front.symm, (List.cons.inj last).1.symm⟩
  · rw [List.concat_eq_append, ← List.cons_append, ← List.append_assoc] at same
    obtain ⟨front, last⟩ := List.append_inj' same rfl
    exact .inr ⟨rest, by rw [List.concat_eq_append, (List.cons.inj last).1], front⟩

/-- **The record is the trace of the history**, by induction from its last attempt. -/
theorem lastFailure_eq_some {t : Nat} : lastFailure history = some t ↔ LastLost parser history t := by
  induction history using List.reverseRecOn with
  | nil => simp [lastFailure, LastLost]
  | append_singleton history x ih =>
    rw [lastFailure_concat]
    constructor
    · intro recorded
      cases answered : x.answer with
      | none =>
        -- the attempt leaves the record alone, and ends as unchanged
        rw [failure_of_none _ answered] at recorded
        obtain ⟨before, a, after, rfl, lost, time, others⟩ := ih.mp recorded
        refine ⟨before, a, after ++ [x], by simp, lost, time, fun b hb => ?_⟩
        rcases List.mem_append.mp hb with hb | hb
        · exact others b hb
        · rw [List.mem_singleton.mp hb]
          exact outcome_eq_unchanged.mpr answered
      | some given =>
        rw [failure_of_some _ answered] at recorded
        split at recorded
        · rename_i lost
          exact ⟨history, x, [], rfl, lost, Option.some.inj recorded, by simp⟩
        · cases recorded
    · rintro ⟨before, a, after, same, lost, time, others⟩
      rcases concat_eq_append_cons same with ⟨-, -, rfl⟩ | ⟨rest, rfl, rfl⟩
      · cases answered : a.answer with
        | none => simp [isLost, answered] at lost
        | some given => rw [failure_of_some _ answered, if_pos lost, time]
      · have unread := outcome_eq_unchanged.mp (others x (by simp))
        rw [failure_of_none _ unread, ih]
        exact ⟨before, a, rest, rfl, lost, time, fun b hb => others b (List.mem_append_left _ hb)⟩

theorem exists_of_lastFailure {t : Nat} (recorded : lastFailure history = some t) : ∃ a ∈ history, a.time = t := by
  -- it does not matter here how texts are understood
  have last : LastLost (fun _ => .ok .empty) history t := lastFailure_eq_some.mp recorded
  obtain ⟨before, a, after, rfl, -, time, -⟩ := last
  exact ⟨a, by simp, time⟩

theorem Spaced.concat (h : Spaced retry history)
    (waited : a.occasion = .poll false → ∀ t, lastFailure history = some t → t + retry ≤ a.time) :
    Spaced retry (history ++ [a]) := by
  intro before b after same polled t recorded
  rcases concat_eq_append_cons same with ⟨-, rfl, rfl⟩ | ⟨rest, -, rfl⟩
  · exact waited polled t recorded
  · exact h before b rest rfl polled t recorded

end Attempt

/-! ## What a sheet records -/

namespace Sheet

variable {parser : String → Except ParseError Content} {s t : Sheet} {a : Attempt} {history as : List Attempt}
  {retry now : Nat}

theorem lapse_congr (same : t.refresh = s.refresh) : t.lapse = s.lapse := by
  unfold lapse isRefreshable failedAt?
  rw [same]

theorem isRefreshable_after : (s.after parser a).isRefreshable = s.isRefreshable := by
  rw [← isRefreshable_outline, outline_after, isRefreshable_outline]

theorem failedAt?_after (refreshable : s.isRefreshable) :
    (s.after parser a).failedAt? = Attempt.failure s.failedAt? a := by
  obtain ⟨state, refreshed⟩ := Option.isSome_iff_exists.mp refreshable
  cases answered : a.answer with
  | none => rw [after_of_none answered, Attempt.failure_of_none _ answered]
  | some given =>
    rw [after_of_some answered, Attempt.failure_of_some _ answered]
    unfold Attempt.isLost
    rw [answered]
    cases given with
    | missing => simp [Answer.understood, Answer.isLost, afterFetch, failedAt?, mapRefresh, refreshed]
    | unreadable cause => simp [Answer.understood, Answer.isLost, afterFetch, failedAt?, mapRefresh, refreshed]
    | text words =>
      -- a text that is not understood clears the record as well
      cases parsed : parser words <;>
        simp [Answer.understood, Answer.isLost, afterFetch, failedAt?, mapRefresh, refreshed, parsed]

/-- The sheet has waited since its last failure, and only then. -/
theorem isBackingOff_eq_false (past : ∀ t, s.failedAt? = some t → t ≤ now) :
    s.isBackingOff retry now = false ↔ ∀ t, s.failedAt? = some t → t + retry ≤ now := by
  have same : s.refresh.bind (·.failedAt) = s.failedAt? := rfl
  unfold isBackingOff
  rw [same]
  cases recorded : s.failedAt? with
  | none => simp
  | some failed =>
    have := past failed recorded
    simp only [decide_eq_false_iff_not, Option.some.injEq, forall_eq']
    omega

/-- What the sheet records agrees with the attempts at it, and polls have left it out while it backed off. -/
structure Recalls (s : Sheet) (retry now : Nat) (history : List Attempt) : Prop where
  failedAt : s.isRefreshable → s.failedAt? = Attempt.lastFailure history
  spaced : Attempt.Spaced retry history
  past : ∀ a ∈ history, a.time ≤ now

/-- A poll that is not forced finds that the sheet does not back off. -/
def Heeds (parser : String → Except ParseError Content) (retry : Nat) : Sheet → List Attempt → Prop
  | _, [] => True
  | s, a :: rest =>
    (a.occasion = .poll false → s.isBackingOff retry a.time = false) ∧ Heeds parser retry (s.after parser a) rest

theorem heeds_append {bs : List Attempt} (first : s.Heeds parser retry as)
    (second : (as.foldl (·.after parser) s).Heeds parser retry bs) : s.Heeds parser retry (as ++ bs) := by
  induction as generalizing s with
  | nil => exact second
  | cons a rest ih => exact ⟨first.1, ih first.2 second⟩

/-- Where no poll comes, there is nothing to heed. -/
theorem heeds_of_forall (other : ∀ a ∈ as, a.occasion ≠ .poll false) : s.Heeds parser retry as := by
  induction as generalizing s with
  | nil => trivial
  | cons a rest ih =>
    obtain ⟨first, others⟩ := List.forall_mem_cons.mp other
    exact ⟨fun polled => absurd polled first, ih others⟩

namespace Recalls

theorem of_unrecorded (none : s.failedAt? = none) : s.Recalls retry now [] :=
  ⟨fun _ => none, fun before b after same => by simp at same, by simp⟩

theorem of_lapse (h : s.Recalls retry now history) (same : t.lapse = s.lapse) : t.Recalls retry now history := by
  have refreshable : t.isRefreshable = s.isRefreshable := congrArg (·.1) same
  have failedAt : t.failedAt? = s.failedAt? := congrArg (·.2) same
  refine ⟨?_, h.spaced, h.past⟩
  rw [refreshable, failedAt]
  exact h.failedAt

theorem later {now' : Nat} (h : s.Recalls retry now history) (later : now ≤ now') : s.Recalls retry now' history :=
  ⟨h.failedAt, h.spaced, fun a ha => Nat.le_trans (h.past a ha) later⟩

theorem failedAt_le (h : s.Recalls retry now history) (refreshable : s.isRefreshable) {t : Nat}
    (recorded : s.failedAt? = some t) : t ≤ now := by
  rw [h.failedAt refreshable] at recorded
  obtain ⟨a, ha, rfl⟩ := Attempt.exists_of_lastFailure recorded
  exact h.past a ha

/-- The step: an attempt that heeds the record keeps it in agreement with the history. -/
theorem after (h : s.Recalls retry now history) (refreshable : s.isRefreshable) (time : a.time = now)
    (heeds : a.occasion = .poll false → s.isBackingOff retry a.time = false) :
    (s.after parser a).Recalls retry now (history ++ [a]) := by
  refine ⟨fun _ => ?_, h.spaced.concat fun polled t recorded => ?_, fun b hb => ?_⟩
  · rw [failedAt?_after refreshable, h.failedAt refreshable, Attempt.lastFailure_concat]
  · have ready := heeds polled
    rw [time] at ready ⊢
    rw [← h.failedAt refreshable] at recorded
    exact (isBackingOff_eq_false fun _ => h.failedAt_le refreshable).mp ready t recorded
  · rcases List.mem_append.mp hb with hb | hb
    · exact h.past b hb
    · exact Nat.le_of_eq (List.mem_singleton.mp hb ▸ time)

/-- The run: a row of attempts does, by induction on the row. -/
theorem foldl (h : s.Recalls retry now history) (refreshable : ∀ a ∈ as, s.isRefreshable)
    (times : ∀ a ∈ as, a.time = now) (heeds : s.Heeds parser retry as) :
    (as.foldl (·.after parser) s).Recalls retry now (history ++ as) := by
  induction as generalizing s history with
  | nil => simpa using h
  | cons a rest ih =>
    obtain ⟨time, times⟩ := List.forall_mem_cons.mp times
    have there := refreshable a List.mem_cons_self
    have first : (s.after parser a).Recalls retry now (history ++ [a]) := h.after there time heeds.1
    rw [List.append_cons]
    exact ih first (fun _ _ => isRefreshable_after.trans there) times heeds.2

end Recalls

end Sheet

namespace Repository

variable {σ : Type} {r r' r'' : Repository σ}

/-! ## Time passes -/

/-- Time only goes on, and polls leave out a sheet for as long as they did. -/
structure Passes (r r' : Repository σ) : Prop where
  retry : r'.config.errorRetryInterval = r.config.errorRetryInterval
  now : r.now ≤ r'.now

namespace Passes

theorem of_same (config : r'.config = r.config) (now : r'.now = r.now) : r.Passes r' :=
  ⟨congrArg _ config, Nat.le_of_eq now.symm⟩

theorem refl (r : Repository σ) : r.Passes r :=
  of_same rfl rfl

theorem trans (first : r.Passes r') (second : r'.Passes r'') : r.Passes r'' :=
  ⟨second.retry.trans first.retry, Nat.le_trans first.now second.now⟩

theorem of_outline (same : r'.outline = r.outline) : r.Passes r' :=
  of_same (congrArg Outline.config same) (now_of_outline same)

end Passes

/-- No attempt is made, and no sheet comes. -/
structure Idles (r r' : Repository σ) : Prop extends r.Passes r' where
  sheets : ∀ id s', r'.get? id = some s' → ∃ s, r.get? id = some s ∧ s'.lapse = s.lapse

namespace Idles

theorem of_sheets (passes : r.Passes r') (same : r'.sheets = r.sheets) : r.Idles r' := by
  refine ⟨passes, fun id s' loaded => ⟨s', ?_, rfl⟩⟩
  rwa [get?, same] at loaded

theorem of_same (sheets : r'.sheets = r.sheets) (config : r'.config = r.config) (now : r'.now = r.now) :
    r.Idles r' :=
  of_sheets (.of_same config now) sheets

theorem refl (r : Repository σ) : r.Idles r :=
  of_same rfl rfl rfl

theorem trans (first : r.Idles r') (second : r'.Idles r'') : r.Idles r'' := by
  refine ⟨first.toPasses.trans second.toPasses, fun id s'' loaded'' => ?_⟩
  obtain ⟨s', loaded', same'⟩ := second.sheets id s'' loaded''
  obtain ⟨s, loaded, same⟩ := first.sheets id s' loaded'
  exact ⟨s, loaded, same'.trans same⟩

theorem foldl {α : Type} {f : Repository σ → α → Repository σ} (step : ∀ (r : Repository σ) a, r.Idles (f r a))
    (row : List α) (r : Repository σ) : r.Idles (row.foldl f r) := by
  induction row generalizing r with
  | nil => exact refl r
  | cons a rest ih => exact (step r a).trans (ih _)

end Idles

theorem passes_update (r : Repository σ) (id : SheetId) (f : Sheet → Sheet) : r.Passes (r.update id f) := by
  unfold update
  split <;> exact .of_same rfl rfl

theorem idles_update (r : Repository σ) (id : SheetId) {f : Sheet → Sheet} (same : ∀ s, (f s).lapse = s.lapse) :
    r.Idles (r.update id f) := by
  refine ⟨passes_update r id f, fun k s' loaded => ?_⟩
  rw [get?_update] at loaded
  split at loaded
  · obtain ⟨s, there, rfl⟩ := Option.map_eq_some_iff.mp loaded
    exact ⟨s, there, same s⟩
  · exact ⟨s', loaded, rfl⟩

theorem passes_insert (r : Repository σ) (sheet : Sheet) : r.Passes (r.insert sheet).2 :=
  .of_same rfl rfl

theorem passes_register (r : Repository σ) (sheet : Sheet) : r.Passes (r.register sheet).2 := by
  unfold register
  split
  · exact .refl r
  · exact passes_insert r sheet

theorem idles_startMonitoring (r : Repository σ) (id : SheetId) : r.Idles (r.startMonitoring id) := by
  have adjusts : ∀ (r : Repository σ) (mode : Monitoring) (watch : Option Nat),
      r.Idles (r.update id fun s => s.mapRefresh fun state => { state with monitoring := mode, watch := watch }) := by
    refine fun r mode watch => idles_update r id fun s => ?_
    unfold Sheet.lapse Sheet.isRefreshable Sheet.failedAt? Sheet.mapRefresh
    cases s.refresh <;> rfl
  unfold startMonitoring
  split
  · exact .refl r
  · split
    · rename_i watch board _
      have watched : r.Idles { r with board := some board } := .of_same rfl rfl rfl
      exact watched.trans (adjusts _ ..)
    · exact (adjusts r ..).trans (.of_same rfl rfl rfl)

theorem idles_setActive (r : Repository σ) (id : SheetId) (active : Bool) : r.Idles (r.setActive id active).2 := by
  unfold setActive
  split
  · exact .refl r
  · split
    · exact .refl r
    · have adjusted : r.Idles (r.update id fun s => { s with active := active }) := idles_update r id fun _ => rfl
      exact adjusted.trans (.of_same rfl rfl rfl)

theorem idles_release (r : Repository σ) (sheet : Sheet) : r.Idles (r.release sheet) := by
  unfold release
  split
  · exact .of_same rfl rfl rfl
  · exact .refl r

theorem idles_discard (r : Repository σ) (id : SheetId) : r.Idles (r.discard id) := by
  unfold discard
  split
  · exact .refl r
  · have erased : r.Idles { r with sheets := r.sheets.erase id } := by
      refine ⟨.of_same rfl rfl, fun k s' loaded => ⟨s', ?_, rfl⟩⟩
      have left : (r.sheets.erase id).get? k = some s' := loaded
      rw [Table.get?_erase] at left
      split at left
      · cases left
      · exact left
    exact erased.trans (idles_release ..)

theorem idles_disableIdleTimer (r : Repository σ) : r.Idles r.disableIdleTimer := by
  obtain ⟨_, _, h⟩ := r.disableIdleTimer_eq
  rw [h]
  exact .of_same rfl rfl rfl

/-- The order changes, the receivers are told, and perhaps the polls end. -/
theorem idles_reorder (r : Repository σ) (order : List SheetId) (e : Event) :
    r.Idles ({ r with order := order }.emit e).disableIdleTimer := by
  have ordered : r.Idles ({ r with order := order }.emit e) := .of_same rfl rfl rfl
  exact ordered.trans (idles_disableIdleTimer _)

theorem idles_unload (r : Repository σ) (id : SheetId) : r.Idles (r.unload id).2 := by
  unfold unload
  split
  · exact .refl r
  · exact (idles_discard r id).trans (idles_reorder ..)

theorem idles_clear (r : Repository σ) : r.Idles r.clear := by
  have released : r.Idles (r.sheets.entries.foldl (fun r e => r.release e.2) r) :=
    .foldl (fun r (e : SheetId × Sheet) => idles_release r e.2) ..
  have cleared : Idles (r.sheets.entries.foldl (fun r e => r.release e.2) r) r.clear := by
    refine ⟨.of_same rfl rfl, fun id s loaded => ?_⟩
    cases loaded
  exact released.trans cleared

theorem idles_unloadAll (r : Repository σ) : r.Idles r.unloadAll := by
  have discarded : r.Idles (r.order.foldl discard r) := .foldl idles_discard ..
  exact (discarded.trans (idles_clear _)).trans (idles_reorder ..)

theorem idles_advance (r : Repository σ) (milliseconds : Nat) : r.Idles (r.advance milliseconds) := by
  obtain ⟨_, _, h⟩ := r.advance_eq milliseconds
  rw [h]
  exact .of_sheets ⟨rfl, Nat.le_add_right ..⟩ rfl

theorem idles_waiting (r : Repository σ) (limit : Nat) : r.Idles (r.waiting limit) := by
  unfold waiting
  split
  · exact idles_advance ..
  · exact .refl r

/-- Only the other interval can be set. -/
theorem idles_setInterval (r : Repository σ) (interval : Nat) : r.Idles (r.setInterval interval) := by
  unfold setInterval
  dsimp only
  split <;> exact .of_sheets ⟨rfl, Nat.le_refl _⟩ rfl

/-! ## What the loaded sheets record -/

variable {as bs : List Attempt} {history : SheetId → List Attempt} {brought : List Attempt}

/-- Each loaded sheet agrees with its history. -/
def Recalls (r : Repository σ) (history : SheetId → List Attempt) : Prop :=
  ∀ id s, r.get? id = some s → s.Recalls r.config.errorRetryInterval r.now (history id)

/-- The histories with which an operation begins: those of the loaded sheets, and what a sheet brings that comes. -/
def carried (r : Repository σ) (history : SheetId → List Attempt) (brought : List Attempt) (id : SheetId) :
    List Attempt :=
  if (r.get? id).isSome then history id else brought

/-- The attempts heed what the sheets record. -/
def Heeds (r : Repository σ) (as : List Attempt) : Prop :=
  ∀ id s, r.get? id = some s → s.Heeds r.parser r.config.errorRetryInterval (Attempt.atSheet id as)

/-- Where no poll comes, there is nothing to heed. -/
theorem heeds_of_forall (other : ∀ a ∈ as, a.occasion ≠ .poll false) : r.Heeds as := by
  intro id s _
  refine Sheet.heeds_of_forall fun a ha => ?_
  exact other a (Attempt.mem_atSheet.mp ha).1

namespace Recalls

theorem congr {history' : SheetId → List Attempt} (h : r.Recalls history)
    (same : ∀ id, (r.get? id).isSome → history' id = history id) : r.Recalls history' := by
  intro id s loaded
  rw [same id (by rw [loaded]; rfl)]
  exact h id s loaded

/-- It does not matter what a sheet would bring that does not come. -/
theorem welcome (h : r.Recalls history) (brought : List Attempt) :
    r.Recalls (r.carried history brought) :=
  h.congr fun _ loaded => if_pos loaded

theorem idles (h : r.Recalls history) (on : r.Idles r') : r'.Recalls history := by
  intro id s' loaded'
  obtain ⟨s, loaded, same⟩ := on.sheets id s' loaded'
  rw [on.retry]
  exact ((h id s loaded).of_lapse same).later on.now

/-- A sheet comes with what it brings. -/
theorem insert (h : r.Recalls history) (new : r.get? ⟨r.nextIndex⟩ = none) {sheet : Sheet}
    (comes : sheet.Recalls r.config.errorRetryInterval r.now brought) :
    (r.insert sheet).2.Recalls (r.carried history brought) := by
  intro id s loaded
  rw [get?_insert] at loaded
  unfold carried
  split at loaded
  · rename_i same
    cases loaded
    subst same
    rw [if_neg (by simp [new])]
    exact comes
  · rw [if_pos (by simp [loaded])]
    exact h id s loaded

theorem register (h : r.Recalls history) (indexed : r.Indexed) {sheet : Sheet}
    (comes : sheet.Recalls r.config.errorRetryInterval r.now brought) :
    (r.register sheet).2.Recalls (r.carried history brought) := by
  unfold Repository.register
  split
  · exact h.welcome brought
  · exact h.insert indexed.get?_next comes

end Recalls

/-! ## Attempts and what the sheets record -/

variable [Source σ]

theorem Heeds.append (first : r.Heeds as) (on : r.Undergoes as r') (second : r'.Heeds bs) : r.Heeds (as ++ bs) := by
  intro id s loaded
  have loaded' := on.sheets id
  rw [loaded, Option.map_some] at loaded'
  have others := second id _ loaded'
  rw [parser_of_outline on.outline, (Passes.of_outline on.outline).retry] at others
  rw [Attempt.atSheet_append]
  exact Sheet.heeds_append (first id s loaded) others

theorem Recalls.undergoes (h : r.Recalls history) (on : r.Undergoes as r') (heeds : r.Heeds as) :
    r'.Recalls fun id => history id ++ Attempt.atSheet id as := by
  intro id s' loaded'
  rw [on.sheets] at loaded'
  obtain ⟨s, loaded, rfl⟩ := Option.map_eq_some_iff.mp loaded'
  rw [(Passes.of_outline on.outline).retry, now_of_outline on.outline]
  refine (h id s loaded).foldl (fun a ha => ?_) (fun a ha => ?_) (heeds id s loaded)
  · -- attempts are made at sheets that are refreshed, and this one has its name
    obtain ⟨made, rfl⟩ := Attempt.mem_atSheet.mp ha
    obtain ⟨-, t, there, refreshable, -⟩ := on.made a made
    cases loaded.symm.trans there
    exact refreshable
  · exact (on.made a (Attempt.mem_atSheet.mp ha).1).1

theorem idles_fetch (r : Repository σ) (location : Location) : r.Idles (r.fetch location).2 :=
  .of_sheets (.of_outline (outline_fetch ..)) (sheets_fetch ..)

end Repository

/-! ## Idle operations -/

/-- The operation neither loads nor refreshes a sheet. -/
def Operation.Idle {σ : Type} : Operation σ → Prop
  | .load .. | .loadFromBundle .. | .loadRefreshable .. | .register _ | .reload .. | .reloadAll _ | .processPending
  | .awaitRequest _ => False
  | _ => True

namespace Repository

variable {σ : Type} [Source σ]

theorem idles_perform (r : Repository σ) {op : Operation σ} (idle : op.Idle) : r.Idles (r.perform op) := by
  cases op with
  | setActive id active => exact idles_setActive r id active
  | unload id => exact idles_unload r id
  | unloadAll => exact idles_unloadAll r
  | setInterval interval => exact idles_setInterval r interval
  | advance milliseconds => exact idles_advance r milliseconds
  | enableTimer | disableTimer | subscribe | unsubscribe _ | openChannel | drain _ | hangUp _ | report _
  | changeSource _ => exact .of_same rfl rfl rfl
  | _ => exact idle.elim

theorem passes_load (r : Repository σ) (location : Location) (name group : Option String) :
    r.Passes (r.load location name group).2 := by
  have fetched := (idles_fetch r location).toPasses
  rcases r.load_cases location name group with ⟨_, -, done⟩ | ⟨-, e, -, done⟩ | ⟨-, content, -, done⟩ <;> rw [done]
  · exact .refl r
  · exact fetched
  · exact fetched.trans (passes_insert ..)

theorem passes_loadFromBundle (r : Repository σ) (path : String) (name group : Option String) :
    r.Passes (r.loadFromBundle path name group).2 := by
  unfold loadFromBundle
  split <;> rename_i source _ <;> have asked : r.Passes { r with source := source } := .of_same rfl rfl
  · exact asked
  · exact asked.trans (passes_load ..)

theorem passes_loadRefreshable (r : Repository σ) (location : Location) (name group : Option String) :
    r.Passes (r.loadRefreshable location name group).2 := by
  have asked : r.Passes (r.asked location) := .of_same rfl rfl
  rcases r.loadRefreshable_cases location name group with ⟨_, -, done⟩ | ⟨-, -, done⟩ | ⟨-, -, sheet, -, done⟩ <;>
    rw [done]
  · exact .refl r
  · exact asked
  · have reloaded := (asked.trans (passes_insert _ sheet)).trans (.of_outline (outline_reload _ ⟨r.nextIndex⟩ true))
    exact reloaded.trans (idles_startMonitoring ..).toPasses

/-- **Time passes with every operation**, and the time for which polls back off stays. -/
theorem passes_perform (r : Repository σ) (op : Operation σ) : r.Passes (r.perform op) := by
  have idle : op.Idle → r.Passes (r.perform op) := fun idle => (idles_perform r idle).toPasses
  cases op with
  | load location name group => exact passes_load r location name group
  | loadFromBundle path name group => exact passes_loadFromBundle r path name group
  | loadRefreshable location name group => exact passes_loadRefreshable r location name group
  | register sheet => exact passes_register r sheet
  | reload id force => exact .of_outline (outline_reload r id force)
  | reloadAll force => exact .of_outline (outline_reloadAll r force)
  | processPending => exact .of_outline (outline_processPending r)
  | awaitRequest limit =>
    show r.Passes (r.awaitRequest limit).2
    rw [awaitRequest_eq]
    exact (idles_waiting r limit).toPasses.trans (.of_outline (outline_processNext _))
  | _ => exact idle trivial

theorem attempts_of_idle (r : Repository σ) {op : Operation σ} (idle : op.Idle) : r.attempts op = [] := by
  cases op with
  | loadRefreshable _ _ _ | reload _ _ | reloadAll _ | processPending | awaitRequest _ => exact idle.elim
  | _ => rfl

end Repository

/-! ## Runs with their history -/

/-- A repository with the attempts at its sheets. -/
structure Chronicle (σ : Type) where
  repository : Repository σ
  /-- The attempts at each loaded sheet, oldest first. -/
  history : SheetId → List Attempt
  /-- The sheets that were unloaded so far, each with the attempts at it. -/
  unloaded : List (Sheet × List Attempt)

/-- The owner registers sheets that were unloaded, whatever they are called now, or for which no failure is recorded.
A failure is recorded only while a sheet is in a repository, so there are no others. -/
def Owner.Genuine {σ : Type} (o : Owner σ) : Operation σ → Prop
  | .register sheet => (∃ known ∈ o.unloaded, known.refresh = sheet.refresh) ∨ sheet.failedAt? = none
  | _ => True

namespace Chronicle

variable {σ : Type}

/-- The owner that the chronicle is of. -/
def owner (c : Chronicle σ) : Owner σ :=
  ⟨c.repository, c.unloaded.map (·.1)⟩

/-- Nothing has happened yet. -/
def new (source : σ) (parser : String → Except ParseError Content) (board : Option WatchBoard)
    (config : RefreshConfig) (hasClock : Bool) : Chronicle σ :=
  ⟨(Owner.new source parser board config hasClock).repository, fun _ => [], []⟩

/-- The attempts at the sheet that an operation gives back. -/
def returned (c : Chronicle σ) : Operation σ → List Attempt
  | .unload id => c.history id
  | _ => []

/-- What was attempted before at a sheet that is registered: all that was when it was unloaded, or nothing, if no
failure is recorded for it. No other operation brings anything. -/
def Brings (c : Chronicle σ) (op : Operation σ) (brought : List Attempt) : Prop :=
  match op with
  | .register sheet =>
    (∃ known, (known, brought) ∈ c.unloaded ∧ known.refresh = sheet.refresh) ∨ sheet.failedAt? = none ∧ brought = []
  | _ => brought = []

theorem Brings.genuine {c : Chronicle σ} {op : Operation σ} {brought : List Attempt} (h : c.Brings op brought) :
    c.owner.Genuine op := by
  cases op with
  | register sheet =>
    rcases h with ⟨known, there, same⟩ | ⟨unrecorded, -⟩
    · exact .inl ⟨known, List.mem_map.mpr ⟨_, there, rfl⟩, same⟩
    · exact .inr unrecorded
  | _ => trivial

theorem brings_of_genuine {c : Chronicle σ} {op : Operation σ} (h : c.owner.Genuine op) :
    ∃ brought, c.Brings op brought := by
  cases op with
  | register sheet =>
    rcases h with ⟨known, unloaded, same⟩ | unrecorded
    · obtain ⟨⟨s, brought⟩, there, rfl⟩ := List.mem_map.mp unloaded
      exact ⟨brought, .inl ⟨s, there, same⟩⟩
    · exact ⟨[], .inr ⟨unrecorded, rfl⟩⟩
  | _ => exact ⟨[], rfl⟩

variable [Source σ]

/-- A sheet that stays goes on with its history, and one that comes begins with what it brought. -/
def perform (c : Chronicle σ) (op : Operation σ) (brought : List Attempt) : Chronicle σ where
  repository := c.repository.perform op
  history id := c.repository.carried c.history brought id ++ Attempt.atSheet id (c.repository.attempts op)
  unloaded := c.unloaded ++ (c.repository.returned op).map fun s => (s, c.returned op)

/-- A run leads from `start` to a chronicle. -/
inductive Recounts (start : Chronicle σ) : Chronicle σ → Prop where
  | refl : Recounts start start
  | step {c : Chronicle σ} {op : Operation σ} {brought : List Attempt} (run : Recounts start c)
      (brings : c.Brings op brought) : Recounts start (c.perform op brought)

theorem owner_perform (c : Chronicle σ) (op : Operation σ) (brought : List Attempt) :
    (c.perform op brought).owner = c.owner.perform op := by
  have returned : ((c.repository.returned op).map fun s => (s, c.returned op)).map (·.1)
      = c.repository.returned op := by
    rw [List.map_map]
    exact List.map_id _
  unfold owner perform Owner.perform
  rw [List.map_append, returned]

variable {start c : Chronicle σ} {o : Owner σ}

/-- A run with its history is a run of the owner. -/
theorem Recounts.reaches (run : Recounts start c) : Owner.Reaches Owner.Genuine start.owner c.owner := by
  induction run with
  | refl => exact .refl
  | step _ brings ih =>
    rw [owner_perform]
    exact .step ih brings.genuine

/-- **Every run of the owner has a history.** -/
theorem recounts_of_reaches (run : Owner.Reaches Owner.Genuine start.owner o) :
    ∃ c, Recounts start c ∧ c.owner = o := by
  induction run with
  | refl => exact ⟨start, .refl, rfl⟩
  | @step o op _ lawful ih =>
    obtain ⟨c, recounted, rfl⟩ := ih
    obtain ⟨brought, brings⟩ := brings_of_genuine lawful
    exact ⟨c.perform op brought, .step recounted brings, owner_perform ..⟩

end Chronicle

end Stylebook
