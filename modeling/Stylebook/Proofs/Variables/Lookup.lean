import Stylebook.Proofs.Repository.Arrival
import Stylebook.Source.Memory
import Stylebook.Variables

/-!
# Which value a variable has

A variable has the value that stands at run time: the last one that was set under its bare name, if it was not taken
back since (`override?_after`). If there is none, it has the value that the sheet defines which came last, of all active
sheets of the scope that define it (`findSome?_activeSheets_run`). The search goes through the order of the repository
from its end, and the order is that of arrival; so all that changes the value of a variable is what is set, what comes
and goes, and what the sheets say.
-/

set_option autoImplicit false

namespace Stylebook

/-! ## Values at run time -/

namespace Variables

/-- A change of the values at run time. -/
inductive Setting where
  | set (name value : String)
  | unset (name : String)

def Setting.name : Setting → String
  | set name _ => name
  | unset name => name

def change (v : Variables) : Setting → Variables
  | .set name value => v.set name value
  | .unset name => v.unset name

/-- The variables after a row of changes. -/
def after (settings : List Setting) : Variables :=
  settings.foldl change empty

/-- The value was set for the variable, and the variable was neither set again nor taken back since. -/
def Stands (settings : List Setting) (name value : String) : Prop :=
  ∃ before n behind, settings = before ++ .set n value :: behind ∧ bareName n = bareName name ∧
    ∀ s ∈ behind, bareName s.name ≠ bareName name

variable {settings : List Setting} {s : Setting} {name value : String}

theorem after_concat (settings : List Setting) (s : Setting) : after (settings ++ [s]) = (after settings).change s := by
  rw [after, List.foldl_append]
  rfl

/-- The last change counts if it is one of the variable. -/
theorem stands_concat_of_same (same : bareName s.name = bareName name) :
    Stands (settings ++ [s]) name value ↔ ∃ n, s = .set n value := by
  constructor
  · rintro ⟨before, n, behind, row, -, others⟩
    rcases behind.eq_nil_or_concat with rfl | ⟨init, last, rfl⟩
    · obtain ⟨-, here⟩ := List.append_inj' row rfl
      exact ⟨n, List.singleton_inj.mp here⟩
    · rw [List.concat_eq_append, ← List.cons_append, ← List.append_assoc] at row
      obtain ⟨-, here⟩ := List.append_inj' row rfl
      obtain rfl := List.singleton_inj.mp here
      exact absurd same (others s (by simp))
  · rintro ⟨n, rfl⟩
    exact ⟨settings, n, [], rfl, same, List.forall_mem_nil _⟩

theorem stands_concat_of_other (other : bareName s.name ≠ bareName name) :
    Stands (settings ++ [s]) name value ↔ Stands settings name value := by
  constructor
  · rintro ⟨before, n, behind, row, named, others⟩
    rcases behind.eq_nil_or_concat with rfl | ⟨init, last, rfl⟩
    · obtain ⟨-, here⟩ := List.append_inj' row rfl
      obtain rfl := List.singleton_inj.mp here
      exact absurd named other
    · rw [List.concat_eq_append, ← List.cons_append, ← List.append_assoc] at row
      obtain ⟨rfl, -⟩ := List.append_inj' row rfl
      exact ⟨before, n, init, rfl, named, fun t ht => others t (by simp [ht])⟩
  · rintro ⟨before, n, behind, rfl, named, others⟩
    refine ⟨before, n, behind ++ [s], by simp, named, fun t ht => ?_⟩
    rcases List.mem_append.mp ht with earlier | last
    · exact others t earlier
    · rw [List.mem_singleton.mp last]
      exact other

theorem override?_change (v : Variables) (s : Setting) (name : String) :
    (v.change s).override? name =
      if bareName s.name = bareName name then (match s with | .set _ value => some value | .unset _ => none)
      else v.override? name := by
  cases s with
  | set n value => exact Table.get?_insert ..
  | unset n => exact Table.get?_erase ..

/-- **The value at run time is the one that stands.** -/
theorem override?_after : (after settings).override? name = some value ↔ Stands settings name value := by
  induction settings using List.reverseRecOn with
  | nil =>
    constructor
    · intro h
      cases h
    · rintro ⟨before, n, behind, row, -⟩
      simp at row
  | append_singleton settings s ih =>
    rw [after_concat, override?_change]
    by_cases same : bareName s.name = bareName name
    · rw [if_pos same, stands_concat_of_same same]
      cases s <;> simp
    · rw [if_neg same, stands_concat_of_other same, ih]

theorem valueOf?_of_override? {v : Variables} {sheets : List Sheet} (h : v.override? name = some value) :
    v.valueOf? sheets name = some value := by
  unfold override? at h
  simp only [valueOf?, lookup, h]

theorem valueOf?_of_not_override? {v : Variables} (h : v.override? name = none) (sheets : List Sheet) :
    v.valueOf? sheets name = sheets.reverse.findSome? fun s => s.valueOf? (bareName name) := by
  unfold override? at h
  simp only [valueOf?, lookup, h]

end Variables

/-! ## Values from sheets -/

namespace Repository

variable {σ : Type} {r : Repository σ} {scope : Scope} {name value : String} {id : SheetId}

/-- The sheet is active and in the scope, and defines the variable so. -/
def Defines (r : Repository σ) (scope : Scope) (name : String) (id : SheetId) (value : String) : Prop :=
  ∃ s, r.get? id = some s ∧ s.active = true ∧ scope.contains s = true ∧
    s.valueOf? (Variables.bareName name) = some value

/-- What the sheet with an identifier says of a variable, if it takes part in lookups. -/
def definition? (r : Repository σ) (scope : Scope) (name : String) (id : SheetId) : Option String :=
  (r.get? id).bind fun s =>
    if s.active ∧ scope.contains s then s.valueOf? (Variables.bareName name) else none

theorem definition?_eq_some_iff : r.definition? scope name id = some value ↔ r.Defines scope name id value := by
  unfold definition? Defines
  rw [Option.bind_eq_some_iff]
  refine exists_congr fun s => and_congr_right fun _ => ?_
  by_cases takes : s.active ∧ scope.contains s
  · rw [if_pos takes]
    simp only [takes, true_and]
  · rw [if_neg takes, ← and_assoc]
    simp only [takes, false_and, reduceCtorEq]

theorem Defines.mem_order (indexed : r.Indexed) (h : r.Defines scope name id value) : id ∈ r.order := by
  obtain ⟨s, loaded, -⟩ := h
  exact (indexed.mem_order id).mpr (by rw [loaded]; rfl)

/-- The sheets in use are searched where the order is searched. -/
theorem findSome?_activeSheets (r : Repository σ) (scope : Scope) (name : String) :
    ((r.activeSheets scope).reverse.findSome? fun s => s.valueOf? (Variables.bareName name)) =
      r.order.reverse.findSome? (r.definition? scope name) := by
  have each (ids : List SheetId) :
      (((ids.filterMap r.get?).filter fun s => s.active ∧ scope.contains s).findSome? fun s =>
        s.valueOf? (Variables.bareName name)) = ids.findSome? (r.definition? scope name) := by
    induction ids with
    | nil => rfl
    | cons id ids ih =>
      rw [List.findSome?_cons]
      cases loaded : r.get? id with
      | none =>
        rw [List.filterMap_cons_none loaded, definition?, loaded, Option.bind_none]
        exact ih
      | some s =>
        rw [List.filterMap_cons_some loaded, definition?, loaded, Option.bind_some, List.filter_cons]
        by_cases takes : s.active ∧ scope.contains s
        · rw [if_pos (decide_eq_true takes), if_pos takes, List.findSome?_cons, ih]
        · rw [if_neg (by simpa using takes), if_neg takes]
          exact ih
  rw [activeSheets_eq, ← List.filter_reverse, ← List.filterMap_reverse]
  exact each r.order.reverse

/-- A search from the end of the order finds the sheet with the greatest identifier. -/
theorem Ranked.findSome?_reverse {β : Type} (ranked : r.Ranked) {f : SheetId → Option β} {b : β} :
    r.order.reverse.findSome? f = some b ↔
      ∃ id ∈ r.order, f id = some b ∧ ∀ id' ∈ r.order, ∀ b', f id' = some b' → id' ≠ id → id'.index < id.index := by
  unfold Ranked at ranked
  rw [List.findSome?_eq_some_iff]
  constructor
  · rintro ⟨behind, id, before, row, found, nothing⟩
    have order : r.order = before.reverse ++ id :: behind.reverse := by
      rw [← List.reverse_reverse r.order, row]
      simp
    rw [order] at ranked ⊢
    refine ⟨id, by simp, found, fun id' there b' found' other => ?_⟩
    rcases List.mem_append.mp there with front | back
    · exact (List.pairwise_append.mp ranked).2.2 id' front id List.mem_cons_self
    · have later := (List.mem_cons.mp back).resolve_left other
      rw [nothing id' (List.mem_reverse.mp later)] at found'
      cases found'
  · rintro ⟨id, there, found, greatest⟩
    obtain ⟨before, behind, order⟩ := List.append_of_mem there
    refine ⟨behind.reverse, id, before.reverse, by rw [order]; simp, found, fun id' there' => ?_⟩
    have later := List.mem_reverse.mp there'
    rw [order] at ranked greatest
    have greater : id.index < id'.index := (List.pairwise_cons.mp (List.pairwise_append.mp ranked).2.1).1 id' later
    cases found' : f id' with
    | none => rfl
    | some b' =>
      have less := greatest id' (by simp [later]) b' found' (by rintro rfl; exact Nat.lt_irrefl _ greater)
      exact absurd less (Nat.lt_asymm greater)

end Repository

/-! ## The sheet that came last -/

namespace Owner

variable {σ : Type} [Source σ] {start : Owner σ} {ops : List (Operation σ)} {scope : Scope} {name value : String}

/-- Of the sheets that define a variable, the search finds the one that came last. -/
theorem findSome?_activeSheets_run (indexed : start.repository.Indexed) (empty : start.repository.order = []) :
    (((start.run ops).repository.activeSheets scope).reverse.findSome? fun s =>
        s.valueOf? (Variables.bareName name)) = some value ↔
      ∃ id k, start.ArrivesAt ops id k ∧ (start.run ops).repository.Defines scope name id value ∧
        ∀ id' k' value', start.ArrivesAt ops id' k' → (start.run ops).repository.Defines scope name id' value' →
          id' ≠ id → k' < k := by
  have indexed' := indexed_run indexed ops
  have ranked : start.repository.Ranked := by
    unfold Repository.Ranked
    rw [empty]
    exact List.Pairwise.nil
  have arrives {id : SheetId} (listed : id ∈ (start.run ops).repository.order) : ∃ k, start.ArrivesAt ops id k := by
    obtain ⟨s, loaded⟩ := Option.isSome_iff_exists.mp ((indexed'.mem_order id).mp listed)
    exact arrives_of_loaded indexed empty loaded
  rw [Repository.findSome?_activeSheets, (ranked_run indexed ranked ops).findSome?_reverse]
  simp only [Repository.definition?_eq_some_iff]
  constructor
  · rintro ⟨id, there, defines, greatest⟩
    obtain ⟨k, here⟩ := arrives there
    refine ⟨id, k, here, defines, fun id' k' value' here' defines' other => ?_⟩
    exact (here'.index_lt_iff indexed here).mp (greatest id' (defines'.mem_order indexed') value' defines' other)
  · rintro ⟨id, k, here, defines, latest⟩
    refine ⟨id, defines.mem_order indexed', defines, fun id' there' value' defines' other => ?_⟩
    obtain ⟨k', here'⟩ := arrives there'
    exact (here'.index_lt_iff indexed here).mpr (latest id' k' value' here' defines' other)

/-- A sheet that says of which colour accents are. -/
def accented (location colour : String) : Sheet :=
  .of ⟨location⟩ ⟨[], .ofList [("accent", colour)]⟩

/-- **Lookups by what was set and by arrival.** Wherever a run leads, a variable has the value that stands at run time,
in every scope. If none stands, it has the value from the sheet that came last, of the active sheets of the scope that
define it, and no value if there is none of these.

Refreshing sheets, loading what is loaded and switching a sheet on or off keep the order and all arrivals. Switching an
active sheet off and on again, and letting a sheet come and go at once, leave every lookup as it was. -/
theorem lookup_of_run (source : σ) (parser : String → Except ParseError Content) (board : Option WatchBoard)
    (config : RefreshConfig) (hasClock : Bool) (ops : List (Operation σ)) (settings : List Variables.Setting)
    (name : String) (scope : Scope) :
    let start := new source parser board config hasClock
    let r := (start.run ops).repository
    let v := Variables.after settings
    (∀ value, Variables.Stands settings name value → v.valueOf? (r.activeSheets scope) name = some value) ∧
    ((∀ value, ¬Variables.Stands settings name value) →
      (∀ value, v.valueOf? (r.activeSheets scope) name = some value ↔
        ∃ id k, start.ArrivesAt ops id k ∧ r.Defines scope name id value ∧
          ∀ id' k' value', start.ArrivesAt ops id' k' → r.Defines scope name id' value' → id' ≠ id → k' < k) ∧
      (v.valueOf? (r.activeSheets scope) name = none ↔ ∀ id value, ¬r.Defines scope name id value)) ∧
    (∀ op, r.Settled op →
      (r.perform op).order = r.order ∧ ∀ id k, start.ArrivesAt (ops ++ [op]) id k ↔ start.ArrivesAt ops id k) ∧
    (∀ id s, r.get? id = some s → s.active = true →
      v.valueOf? (((r.setActive id false).2.setActive id true).2.activeSheets scope) name =
        v.valueOf? (r.activeSheets scope) name) ∧
    ∀ op id, r.get? id = none → ((r.perform op).get? id).isSome →
      v.valueOf? (((r.perform op).unload id).2.activeSheets scope) name = v.valueOf? (r.activeSheets scope) name := by
  intro start r v
  have initial : start.repository.Indexed := Repository.indexed_of_empty rfl fun _ => rfl
  have indexed : r.Indexed := indexed_run initial ops
  refine ⟨fun value stands => ?_, fun none => ?_, fun op settled => ?_, fun id s loaded active => ?_,
    fun op id before behind => ?_⟩
  · exact Variables.valueOf?_of_override? (Variables.override?_after.mpr stands)
  · have unset : v.override? name = Option.none := by
      rw [Option.eq_none_iff_forall_ne_some]
      exact fun value set => none value (Variables.override?_after.mp set)
    rw [Variables.valueOf?_of_not_override? unset]
    refine ⟨fun value => findSome?_activeSheets_run initial rfl, ?_⟩
    rw [Repository.findSome?_activeSheets, List.findSome?_eq_none_iff]
    simp only [List.mem_reverse, Option.eq_none_iff_forall_ne_some, ne_eq, Repository.definition?_eq_some_iff]
    exact ⟨fun nowhere id value defines => nowhere id (defines.mem_order indexed) value defines,
      fun nowhere id _ value => nowhere id value⟩
  · exact ⟨Repository.order_of_places (indexed.places_perform settled),
      fun id k => arrivesAt_concat_iff initial settled⟩
  · rw [Repository.activeSheets_reactivate loaded active]
  · obtain ⟨receives, rfl⟩ := (r.steps_perform op).receives_of_new indexed (indexed.perform op) before behind
    rw [receives.activeSheets_unload indexed behind]

/-- The theme came after the base, which has been switched off and on since. -/
theorem lookup_of_run_theme :
    let start : Owner MemoryFiles := .new .empty (fun _ => .ok .empty) none .standard true
    let ops : List (Operation MemoryFiles) :=
      [.register (accented "mem://base.css" "red"), .register (accented "mem://theme.css" "blue"),
        .setActive ⟨0⟩ false, .setActive ⟨0⟩ true]
    let r := (start.run ops).repository
    let black := Variables.Setting.set "--accent" "black"
    (Variables.Stands [black] "@accent" "black" ∧
        (Variables.after [black]).valueOf? (r.activeSheets .all) "@accent" = some "black") ∧
      ((∀ value, ¬Variables.Stands [black, .unset "accent"] "@accent" value) ∧
        ∃ id k, start.ArrivesAt ops id k ∧ r.Defines .all "@accent" id "blue") ∧
      (r.Settled (.setActive ⟨0⟩ false) ∧ (r.perform (.setActive ⟨0⟩ false)).order = [⟨0⟩, ⟨1⟩]) ∧
      (r.get? ⟨2⟩ = none ∧ ((r.perform (.register (accented "mem://new.css" "green"))).get? ⟨2⟩).isSome ∧
        (Variables.after []).valueOf?
          (((r.perform (.register (accented "mem://new.css" "green"))).unload ⟨2⟩).2.activeSheets .all) "@accent" =
            some "blue") := by
  intro start ops r black
  have stands : Variables.Stands [black] "@accent" "black" :=
    ⟨[], "--accent", [], rfl, by decide, List.forall_mem_nil _⟩
  have none (value : String) : ¬Variables.Stands [black, .unset "accent"] "@accent" value := by
    have unset : (Variables.after [black, .unset "accent"]).override? "@accent" = Option.none := by decide
    rw [← Variables.override?_after, unset]
    rintro ⟨⟩
  have run (settings : List Variables.Setting) :=
    lookup_of_run MemoryFiles.empty (fun _ => .ok .empty) Option.none .standard true ops settings "@accent" .all
  have blue : (Variables.after [black, .unset "accent"]).valueOf? (r.activeSheets .all) "@accent" = some "blue" := by
    decide +kernel
  have absent : r.get? ⟨2⟩ = Option.none := by decide +kernel
  have present : ((r.perform (.register (accented "mem://new.css" "green"))).get? ⟨2⟩).isSome := by decide +kernel
  have theme : (Variables.after []).valueOf? (r.activeSheets .all) "@accent" = some "blue" := by decide +kernel
  have order : r.order = [⟨0⟩, ⟨1⟩] := by decide +kernel
  obtain ⟨id, k, arrives, defines, -⟩ := (((run _).2.1 none).1 "blue").mp blue
  refine ⟨⟨stands, (run _).1 "black" stands⟩, ⟨none, id, k, arrives, defines⟩, ⟨trivial, ?_⟩, absent, present, ?_⟩
  · exact ((run []).2.2.1 (.setActive ⟨0⟩ false) trivial).1.trans order
  · exact ((run []).2.2.2.2 _ ⟨2⟩ absent present).trans theme

end Owner

end Stylebook
