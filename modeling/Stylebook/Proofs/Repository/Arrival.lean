import Mathlib.Data.List.Induction
import Mathlib.Order.Monotone.Basic
import Stylebook.Proofs.Cascade.Declarations
import Stylebook.Proofs.Repository.Evolution
import Stylebook.Proofs.Repository.Monitoring

/-!
# Sheets in the order of their arrival

With each operation either one sheet comes, as the newest one and with all others as they were, or none does; then some
may go, and those that are left keep their order (`steps_perform`). Identifiers are issued in increasing order. So along
a run the order is always increasing, and of two sheets the one that came with the earlier operation is in front
(`ArrivesAt.index_lt_iff`): the order of a repository is the order of arrival.

Only the arrival counts. Refreshing a sheet, loading what is loaded and switching a sheet on or off change nothing about
the order (`Indexed.places_perform`), and when a sheet that came goes at once, all sheets in use are those from before
(`Receives.activeSheets_unload`).

Runs are taken here as rows of operations, which is no restriction: whatever a repository can reach with operations is
where such a row leads (`Owner.reaches_iff_run`).
-/

set_option autoImplicit false

namespace Stylebook

namespace Repository

variable {σ : Type} {r r' : Repository σ}

/-! ## One step -/

/-- A sheet comes as the newest one, and the others stay as they are. -/
structure Receives (r r' : Repository σ) : Prop where
  order : r'.order = r.order ++ [⟨r.nextIndex⟩]
  nextIndex : r'.nextIndex = r.nextIndex + 1
  others : ∀ k, ⟨r.nextIndex⟩ ≠ k → r'.get? k = r.get? k

theorem receives_insert (r : Repository σ) (sheet : Sheet) : r.Receives (r.insert sheet).2 where
  order := rfl
  nextIndex := rfl
  others k other := by rw [get?_insert, if_neg other]

/-- The step may start from a repository with the same sheets. -/
theorem Receives.of_places_left {s : Repository σ} (h : s.Receives r') (order : s.order = r.order)
    (nextIndex : s.nextIndex = r.nextIndex) (sheets : ∀ k, s.get? k = r.get? k) : r.Receives r' where
  order := by rw [h.order, order, nextIndex]
  nextIndex := by rw [h.nextIndex, nextIndex]
  others k other := (h.others k (nextIndex ▸ other)).trans (sheets k)

/-- What happens to the new sheet then does not matter. -/
theorem Receives.of_places_right {s : Repository σ} (h : r.Receives s) (places : r'.places = s.places)
    (others : ∀ k, ⟨r.nextIndex⟩ ≠ k → r'.get? k = s.get? k) : r.Receives r' where
  order := (order_of_places places).trans h.order
  nextIndex := (congrArg (·.2.1) places : r'.nextIndex = s.nextIndex).trans h.nextIndex
  others k other := (others k other).trans (h.others k other)

theorem order_unload {id : SheetId} (loaded : (r.get? id).isSome) :
    (r.unload id).2.order = r.order.filter (· ≠ id) := by
  obtain ⟨sheet, there⟩ := Option.isSome_iff_exists.mp loaded
  unfold unload
  rw [there]
  exact order_of_places (places_disableIdleTimer _)

theorem order_unload_sublist (r : Repository σ) (id : SheetId) : (r.unload id).2.order.Sublist r.order := by
  by_cases loaded : (r.get? id).isSome
  · rw [order_unload loaded]
    exact List.filter_sublist
  · unfold unload
    rw [Option.not_isSome_iff_eq_none.mp loaded]

theorem order_unloadAll (r : Repository σ) : r.unloadAll.order = [] :=
  order_of_places (places_disableIdleTimer _)

/-- A sheet comes, or some may go. -/
inductive Steps (r r' : Repository σ) : Prop
  | leaves (order : r'.order.Sublist r.order)
  | receives (h : r.Receives r')

theorem Steps.of_order (same : r'.order = r.order) : r.Steps r' :=
  .leaves (same ▸ List.Sublist.refl _)

theorem steps_register (r : Repository σ) (sheet : Sheet) : r.Steps (r.register sheet).2 := by
  unfold register
  split
  · exact .of_order rfl
  · exact .receives (receives_insert r sheet)

/-- The order goes with the identifiers. -/
def Ranked (r : Repository σ) : Prop :=
  r.order.Pairwise fun a b => a.index < b.index

theorem Steps.ranked (steps : r.Steps r') (indexed : r.Indexed) (ranked : r.Ranked) : r'.Ranked := by
  unfold Ranked
  cases steps with
  | leaves order => exact ranked.sublist order
  | receives h =>
    rw [h.order, List.pairwise_append]
    refine ⟨ranked, List.pairwise_singleton _ _, fun a old b new => ?_⟩
    rw [List.mem_singleton.mp new]
    exact indexed.issued a old

/-- What comes gets the identifier that is next. -/
theorem Steps.receives_of_new (steps : r.Steps r') (indexed : r.Indexed) (indexed' : r'.Indexed) {id : SheetId}
    (before : r.get? id = none) (behind : (r'.get? id).isSome) : r.Receives r' ∧ id = ⟨r.nextIndex⟩ := by
  have absent : id ∉ r.order := fun there =>
    Option.not_isSome_iff_eq_none.mpr before ((indexed.mem_order id).mp there)
  have present : id ∈ r'.order := (indexed'.mem_order id).mpr behind
  cases steps with
  | leaves order => exact absurd (order.subset present) absent
  | receives h =>
    rw [h.order] at present
    exact ⟨h, List.mem_singleton.mp ((List.mem_append.mp present).resolve_left absent)⟩

/-! ## Sheets in use -/

/-- The sheets in use are those that the order and the table agree on. -/
theorem activeSheets_congr (order : r'.order = r.order) (sheets : ∀ k ∈ r.order, r'.get? k = r.get? k) (scope : Scope) :
    r'.activeSheets scope = r.activeSheets scope := by
  rw [activeSheets_eq, activeSheets_eq, order, List.filterMap_congr sheets]

/-- When a sheet that came goes at once, all is as it was. -/
theorem Receives.activeSheets_unload (h : r.Receives r') (indexed : r.Indexed)
    (loaded : (r'.get? ⟨r.nextIndex⟩).isSome) (scope : Scope) :
    (r'.unload ⟨r.nextIndex⟩).2.activeSheets scope = r.activeSheets scope := by
  have other : ∀ k ∈ r.order, k ≠ ⟨r.nextIndex⟩ := by
    rintro k old rfl
    exact Nat.lt_irrefl _ (indexed.issued _ old)
  refine activeSheets_congr ?_ (fun k old => ?_) scope
  · rw [order_unload loaded, h.order, List.filter_append, List.filter_eq_self.mpr (by simpa using other)]
    simp
  · rw [get?_unload, if_neg (other k old).symm, h.others k (other k old).symm]

theorem get?_setActive (r : Repository σ) (id k : SheetId) (active : Bool) :
    (r.setActive id active).2.get? k =
      if id = k then (r.get? k).map fun s => { s with active := active } else r.get? k := by
  unfold setActive
  cases loaded : r.get? id with
  | none =>
    by_cases same : id = k
    · subst same
      rw [if_pos rfl, loaded, Option.map_none]
    · rw [if_neg same]
  | some sheet =>
    dsimp only
    split
    · -- the sheet is as it is to be already
      rename_i already
      by_cases same : id = k
      · subst same
        rw [if_pos rfl, loaded, Option.map_some, ← already]
      · rw [if_neg same]
    · exact get?_update ..

/-- A sheet that is switched off and on again is as it was. -/
theorem activeSheets_reactivate {id : SheetId} {s : Sheet} (loaded : r.get? id = some s) (active : s.active = true)
    (scope : Scope) :
    ((r.setActive id false).2.setActive id true).2.activeSheets scope = r.activeSheets scope := by
  refine activeSheets_congr ?_ (fun k _ => ?_) scope
  · exact order_of_places ((places_setActive ..).trans (places_setActive ..))
  · rw [get?_setActive, get?_setActive]
    split
    · rename_i same
      rw [← same, loaded, Option.map_some, Option.map_some, ← active]
    · rfl

/-! ## Operations -/

variable [Source σ]

theorem steps_load (r : Repository σ) (location : Location) (name group : Option String) :
    r.Steps (r.load location name group).2 := by
  have fetched := outline_fetch r location
  rcases r.load_cases location name group with ⟨id, -, done⟩ | ⟨-, e, -, done⟩ | ⟨-, content, -, done⟩ <;> rw [done]
  · exact .of_order rfl
  · exact .of_order (order_of_outline fetched)
  · refine .receives ((receives_insert _ _).of_places_left (order_of_outline fetched) ?_ fun k => ?_)
    · exact congrArg Outline.nextIndex fetched
    · rw [get?, sheets_fetch, get?]

theorem steps_loadFromBundle (r : Repository σ) (path : String) (name group : Option String) :
    r.Steps (r.loadFromBundle path name group).2 := by
  unfold loadFromBundle
  split
  · exact .of_order rfl
  · rename_i location source _
    rcases steps_load { r with source := source } location name group with ⟨fewer⟩ | ⟨one⟩
    · exact .leaves fewer
    · exact .receives (one.of_places_left rfl rfl fun _ => rfl)

theorem steps_loadRefreshable (r : Repository σ) (location : Location) (name group : Option String) :
    r.Steps (r.loadRefreshable location name group).2 := by
  rcases r.loadRefreshable_cases location name group with
    ⟨id, -, done⟩ | ⟨-, -, done⟩ | ⟨-, -, sheet, -, done⟩ <;> rw [done]
  · exact .of_order rfl
  · exact .of_order rfl
  · have stored : r.Receives ((r.asked location).insert sheet).2 :=
      (receives_insert _ _).of_places_left rfl rfl fun _ => rfl
    have read : r.Receives (((r.asked location).insert sheet).2.reload ⟨r.nextIndex⟩ true).2 :=
      stored.of_places_right (places_of_outline (outline_reload ..)) fun k other => get?_reload_of_ne other true
    exact .receives (read.of_places_right (places_startMonitoring ..) fun k other => get?_startMonitoring_of_ne other)

theorem places_awaitRequest (r : Repository σ) (limit : Nat) : (r.awaitRequest limit).2.places = r.places := by
  unfold awaitRequest
  split
  · exact (places_of_outline (outline_processNext _)).trans (places_advance ..)
  · exact places_of_outline (outline_processNext r)

/-- With every operation a sheet comes, or none does and those that are left keep their order. -/
theorem steps_perform (r : Repository σ) (op : Operation σ) : r.Steps (r.perform op) := by
  cases op with
  | load location name group => exact steps_load r location name group
  | loadFromBundle path name group => exact steps_loadFromBundle r path name group
  | loadRefreshable location name group => exact steps_loadRefreshable r location name group
  | register sheet => exact steps_register r sheet
  | setActive id active => exact .of_order (order_of_places (places_setActive ..))
  | reload id force => exact .of_order (order_of_outline (outline_reload ..))
  | reloadAll force => exact .of_order (order_of_outline (outline_reloadAll ..))
  | processPending => exact .of_order (order_of_outline (outline_processPending r))
  | awaitRequest limit => exact .of_order (order_of_places (places_awaitRequest ..))
  | unload id => exact .leaves (order_unload_sublist r id)
  | unloadAll => exact .leaves ((order_unloadAll r).symm ▸ List.nil_sublist _)
  | setInterval interval => exact .of_order (order_of_places (places_setInterval ..))
  | advance milliseconds => exact .of_order (order_of_places (places_advance ..))
  | enableTimer | disableTimer | subscribe | unsubscribe _ | openChannel | drain _ | hangUp _ | report _
  | changeSource _ => exact .of_order rfl

theorem Change.nextIndex_le {Guest : Sheet → Prop} (change : Change Guest r r') : r.nextIndex ≤ r'.nextIndex := by
  have same {s t : Repository σ} (kept : t.nextIndex = s.nextIndex) : s.nextIndex ≤ t.nextIndex :=
    Nat.le_of_eq kept.symm
  cases change with
  | aside h => exact same h.nextIndex
  | fetch location => exact same (congrArg Outline.nextIndex (outline_fetch r location))
  | refresh id force => exact same (congrArg Outline.nextIndex (outline_refresh r id force))
  | insert => exact Nat.le_succ _
  | adjust id => exact same (nextIndex_update r id _)
  | resolve | ask | erase | clear => exact Nat.le_refl _

theorem Changes.nextIndex_le {Guest : Sheet → Prop} (row : Changes Guest r r') : r.nextIndex ≤ r'.nextIndex :=
  row.relates (R := fun r r' => r.nextIndex ≤ r'.nextIndex) (fun _ => Nat.le_refl _) Nat.le_trans Change.nextIndex_le

/-- Identifiers are issued in increasing order. -/
theorem nextIndex_le_perform (r : Repository σ) (op : Operation σ) : r.nextIndex ≤ (r.perform op).nextIndex := by
  cases op with
  | processPending => exact Nat.le_of_eq (congrArg Outline.nextIndex (outline_processPending r)).symm
  | awaitRequest limit => exact Nat.le_of_eq (congrArg (·.2.1) (places_awaitRequest r limit)).symm
  | changeSource change => exact Nat.le_refl _
  | _ => exact Changes.nextIndex_le (changes_perform r trivial)

/-! ## Operations without arrivals -/

/-- The operation refreshes sheets, loads what is loaded, or switches a sheet on or off. -/
def Settled (r : Repository σ) : Operation σ → Prop
  | .load location _ _ | .loadRefreshable location _ _ => ∃ id s, r.get? id = some s ∧ s.location = location
  | .loadFromBundle path _ _ =>
    ∃ id s, r.get? id = some s ∧ (Source.resolveBundle r.source path).1 = some s.location
  | .register sheet => ∃ id s, r.get? id = some s ∧ sheet.location = s.location
  | .setActive _ _ | .reload _ _ | .reloadAll _ | .processPending | .awaitRequest _ => True
  | _ => False

/-- Such an operation keeps the order, the identifiers and the locations. -/
theorem Indexed.places_perform (h : r.Indexed) {op : Operation σ} (settled : r.Settled op) :
    (r.perform op).places = r.places := by
  cases op with
  | load location name group =>
    obtain ⟨id, s, loaded, rfl⟩ := settled
    exact congrArg (·.2.places) (h.load_loaded loaded name group)
  | loadRefreshable location name group =>
    obtain ⟨id, s, loaded, rfl⟩ := settled
    exact congrArg (·.2.places) (h.loadRefreshable_loaded loaded name group)
  | loadFromBundle path name group =>
    obtain ⟨id, s, loaded, resolved⟩ := settled
    have found : Source.resolveBundle r.source path = (some s.location, (Source.resolveBundle r.source path).2) :=
      Prod.ext resolved rfl
    exact congrArg (·.2.places) (h.loadFromBundle_loaded loaded found name group)
  | register sheet =>
    obtain ⟨id, s, loaded, same⟩ := settled
    exact congrArg (·.2.places) (h.register_loaded loaded same)
  | setActive id active => exact places_setActive ..
  | reload id force => exact places_of_outline (outline_reload ..)
  | reloadAll force => exact places_of_outline (outline_reloadAll ..)
  | processPending => exact places_of_outline (outline_processPending r)
  | awaitRequest limit => exact places_awaitRequest r limit
  | _ => exact settled.elim

end Repository

namespace Owner

variable {σ : Type} [Source σ]

/-! ## Runs by their operations -/

/-- The owner after a row of operations. -/
def run (start : Owner σ) (ops : List (Operation σ)) : Owner σ :=
  ops.foldl perform start

theorem run_concat (start : Owner σ) (ops : List (Operation σ)) (op : Operation σ) :
    start.run (ops ++ [op]) = (start.run ops).perform op := by
  rw [run, List.foldl_append]
  rfl

theorem reaches_run (start : Owner σ) (ops : List (Operation σ)) :
    Reaches (fun _ _ => True) start (start.run ops) := by
  induction ops using List.reverseRecOn with
  | nil => exact .refl
  | append_singleton ops op ih =>
    rw [run_concat]
    exact .step ih trivial

/-- Where runs lead is where rows of operations lead. -/
theorem reaches_iff_run {start o : Owner σ} : Reaches (fun _ _ => True) start o ↔ ∃ ops, start.run ops = o := by
  constructor
  · intro run
    induction run with
    | refl => exact ⟨[], rfl⟩
    | @step o op _ _ ih =>
      obtain ⟨ops, rfl⟩ := ih
      exact ⟨ops ++ [op], run_concat start ops op⟩
  · rintro ⟨ops, rfl⟩
    exact reaches_run start ops

/-- The repository after so many operations of a row. -/
def after (start : Owner σ) (ops : List (Operation σ)) (k : Nat) : Repository σ :=
  (start.run (ops.take k)).repository

/-- The sheet with an identifier comes with the operation at this place in the row. -/
structure ArrivesAt (start : Owner σ) (ops : List (Operation σ)) (id : SheetId) (k : Nat) : Prop where
  before : (start.after ops k).get? id = none
  behind : ((start.after ops (k + 1)).get? id).isSome

section After

variable {start : Owner σ} {ops : List (Operation σ)} {id id' : SheetId} {k k' : Nat}

theorem after_of_length_le (done : ops.length ≤ k) : start.after ops k = (start.run ops).repository := by
  rw [after, List.take_of_length_le done]

theorem after_succ (more : k < ops.length) : start.after ops (k + 1) = (start.after ops k).perform ops[k] := by
  rw [after, List.take_succ_eq_append_getElem more, run_concat]
  rfl

theorem after_append (early : k ≤ ops.length) (others : List (Operation σ)) :
    start.after (ops ++ others) k = start.after ops k := by
  rw [after, List.take_append_of_le_length early]
  rfl

/-- What holds of every operation, and of doing nothing, holds of every step of a row. -/
theorem relates_after {R : Repository σ → Repository σ → Prop} (refl : ∀ r, R r r) (step : ∀ r op, R r (r.perform op))
    (start : Owner σ) (ops : List (Operation σ)) (k : Nat) : R (start.after ops k) (start.after ops (k + 1)) := by
  by_cases more : k < ops.length
  · rw [after_succ more]
    exact step _ ops[k]
  · have done := Nat.not_lt.mp more
    rw [after_of_length_le done, after_of_length_le (done.trans (Nat.le_succ k))]
    exact refl _

theorem steps_after (start : Owner σ) (ops : List (Operation σ)) (k : Nat) :
    (start.after ops k).Steps (start.after ops (k + 1)) :=
  relates_after (fun _ => .of_order rfl) Repository.steps_perform start ops k

theorem monotone_nextIndex (start : Owner σ) (ops : List (Operation σ)) :
    Monotone fun k => (start.after ops k).nextIndex :=
  monotone_nat_of_le_succ <| relates_after (R := fun r r' => r.nextIndex ≤ r'.nextIndex) (fun _ => Nat.le_refl _)
    Repository.nextIndex_le_perform start ops

theorem ArrivesAt.lt_length (arrives : start.ArrivesAt ops id k) : k < ops.length := by
  by_contra late
  have behind := arrives.behind
  rw [after_of_length_le (Nat.not_lt.mp late |>.trans (Nat.le_succ k)), ← after_of_length_le (Nat.not_lt.mp late),
    arrives.before] at behind
  cases behind

/-- What is loaded in the end, and was not at the start, has come with one of the operations. -/
theorem exists_arrivesAt (absent : start.repository.get? id = none)
    (loaded : ((start.run ops).repository.get? id).isSome) : ∃ k, start.ArrivesAt ops id k := by
  have somewhere : ∀ n, ((start.after ops n).get? id).isSome → ∃ k, start.ArrivesAt ops id k := by
    intro n
    induction n with
    | zero =>
      intro now
      have first : start.after ops 0 = start.repository := rfl
      rw [first, absent] at now
      cases now
    | succ n ih =>
      intro now
      by_cases already : ((start.after ops n).get? id).isSome
      · exact ih already
      · exact ⟨n, Option.not_isSome_iff_eq_none.mp already, now⟩
  refine somewhere ops.length ?_
  rwa [after_of_length_le (Nat.le_refl _)]

end After

/-! ## Arrivals in their order -/

section Order

variable {start : Owner σ} {ops : List (Operation σ)} {id id' : SheetId} {k k' : Nat}
  (indexed : start.repository.Indexed)
include indexed

theorem indexed_run (ops : List (Operation σ)) : (start.run ops).repository.Indexed :=
  (reaches_run start ops).invariant (I := fun o => o.repository.Indexed) indexed fun _ op _ h => h.perform op

theorem ranked_run (ranked : start.repository.Ranked) (ops : List (Operation σ)) :
    (start.run ops).repository.Ranked := by
  induction ops using List.reverseRecOn with
  | nil => exact ranked
  | append_singleton ops op ih =>
    rw [run_concat]
    exact (Repository.steps_perform _ op).ranked (indexed_run indexed ops) ih

theorem ArrivesAt.receives (arrives : start.ArrivesAt ops id k) :
    (start.after ops k).Receives (start.after ops (k + 1)) ∧ id = ⟨(start.after ops k).nextIndex⟩ :=
  (steps_after start ops k).receives_of_new (indexed_run indexed _) (indexed_run indexed _) arrives.before
    arrives.behind

theorem ArrivesAt.index_lt (arrives : start.ArrivesAt ops id k) (arrives' : start.ArrivesAt ops id' k')
    (earlier : k < k') : id.index < id'.index := by
  obtain ⟨h, rfl⟩ := arrives.receives indexed
  obtain ⟨-, rfl⟩ := arrives'.receives indexed
  have issued : (start.after ops (k + 1)).nextIndex ≤ (start.after ops k').nextIndex :=
    monotone_nextIndex start ops earlier
  rw [h.nextIndex] at issued
  exact issued

/-- **The order of identifiers is the order of arrival.** -/
theorem ArrivesAt.index_lt_iff (arrives : start.ArrivesAt ops id k) (arrives' : start.ArrivesAt ops id' k') :
    id.index < id'.index ↔ k < k' := by
  refine ⟨fun smaller => ?_, arrives.index_lt indexed arrives'⟩
  rcases Nat.lt_trichotomy k k' with earlier | rfl | later
  · exact earlier
  · obtain ⟨-, rfl⟩ := arrives.receives indexed
    obtain ⟨-, rfl⟩ := arrives'.receives indexed
    exact absurd smaller (Nat.lt_irrefl _)
  · exact absurd smaller (Nat.lt_asymm (arrives'.index_lt indexed arrives later))

/-- What a run that starts without sheets leads to has come with one of the operations. -/
theorem arrives_of_loaded (empty : start.repository.order = []) {s : Sheet}
    (loaded : (start.run ops).repository.get? id = some s) : ∃ k, start.ArrivesAt ops id k := by
  refine exists_arrivesAt ?_ (by rw [loaded]; rfl)
  rw [← Option.not_isSome_iff_eq_none, ← indexed.mem_order, empty]
  exact List.not_mem_nil

/-- An operation that keeps the places brings no sheet and changes no arrival. -/
theorem arrivesAt_concat_iff {op : Operation σ} (settled : (start.run ops).repository.Settled op) :
    start.ArrivesAt (ops ++ [op]) id k ↔ start.ArrivesAt ops id k := by
  have last : start.after (ops ++ [op]) (ops.length + 1) = (start.run ops).repository.perform op := by
    rw [after_of_length_le (by simp), run_concat]
    rfl
  have same : (((start.run ops).repository.perform op).get? id).isSome = ((start.run ops).repository.get? id).isSome :=
    Repository.isSome_of_view (congrArg (·.2.2) ((indexed_run indexed ops).places_perform settled)) id
  constructor
  · intro arrives
    have place := arrives.lt_length
    rw [List.length_append, List.length_singleton] at place
    have before := arrives.before
    have behind := arrives.behind
    rw [after_append (Nat.le_of_lt_succ place)] at before
    rcases Nat.lt_succ_iff_lt_or_eq.mp place with early | rfl
    · rw [after_append early] at behind
      exact ⟨before, behind⟩
    · rw [last, same] at behind
      rw [after_of_length_le (Nat.le_refl _)] at before
      rw [before] at behind
      cases behind
  · intro arrives
    have place := arrives.lt_length
    constructor
    · rw [after_append place.le]
      exact arrives.before
    · rw [after_append place]
      exact arrives.behind

end Order

end Owner

end Stylebook
