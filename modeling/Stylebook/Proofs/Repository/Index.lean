import Mathlib.Data.List.Nodup
import Stylebook.Proofs.Repository.Outline
import Stylebook.Source.Memory

/-!
# Each location once

A repository keeps its sheets twice: in a table by identifier, and as a row of identifiers in the order in
which they came. `Indexed` says that the two agree, that no two loaded sheets have the same location, and that
identifiers yet to be issued are new. Every operation keeps this, so it holds wherever a run leads
(`Owner.Reaches.indexed`).

From it follows what the search for a location answers: exactly the one sheet from there. A location that is
loaded is therefore found by each of the four operations that load, and they change nothing
(`Indexed.load_loaded` and those like it).
-/

set_option autoImplicit false

namespace Stylebook

namespace Repository

variable {σ : Type}

/-- The order and the table agree, and each location is loaded at most once. -/
structure Indexed (r : Repository σ) : Prop where
  nodup : r.order.Nodup
  mem_order : ∀ id, id ∈ r.order ↔ (r.get? id).isSome
  distinct : ∀ id id' s s', r.get? id = some s → r.get? id' = some s' → s.location = s'.location → id = id'
  issued : ∀ id ∈ r.order, id.index < r.nextIndex

/-- No sheet is loaded from a location. -/
def Vacant (r : Repository σ) (location : Location) : Prop :=
  ∀ id s, r.get? id = some s → s.location ≠ location

/-- All that the index of a repository depends on. -/
def places (r : Repository σ) : List SheetId × Nat × (SheetId → Option Location) :=
  (r.order, r.nextIndex, r.view (·.location))

/-! ## Changes that keep the places -/

theorem places_update (r : Repository σ) (id : SheetId) {f : Sheet → Sheet}
    (same : ∀ s, (f s).location = s.location) : (r.update id f).places = r.places := by
  unfold places
  rw [view_update r id same]
  unfold update
  cases r.get? id <;> rfl

/-- The places are in the outline, so every refresh keeps them. -/
theorem places_of_outline {r r' : Repository σ} (same : r'.outline = r.outline) : r'.places = r.places := by
  have next : r'.nextIndex = r.nextIndex := congrArg Outline.nextIndex same
  unfold places
  rw [view_of_outline (fun _ => rfl) same, order_of_outline same, next]

theorem order_of_places {r r' : Repository σ} (same : r'.places = r.places) : r'.order = r.order :=
  congrArg (·.1) same

theorem get?_of_places {r r' : Repository σ} (same : r'.places = r.places) {id : SheetId} {s : Sheet}
    (h : r'.get? id = some s) : ∃ s', r.get? id = some s' ∧ s'.location = s.location :=
  get?_of_view (congrArg (·.2.2) same) h

theorem Vacant.of_places {r r' : Repository σ} {location : Location} (h : r.Vacant location)
    (same : r'.places = r.places) : r'.Vacant location := by
  intro id s hs
  obtain ⟨s', hs', hl⟩ := get?_of_places same hs
  exact hl ▸ h id s' hs'

theorem Indexed.of_places {r r' : Repository σ} (h : r.Indexed) (same : r'.places = r.places) :
    r'.Indexed := by
  have order := order_of_places same
  have next : r'.nextIndex = r.nextIndex := congrArg (·.2.1) same
  refine ⟨order ▸ h.nodup, fun id => ?_, fun id id' s s' hs hs' hl => ?_, fun id hid => ?_⟩
  · have sheets : r'.view (·.location) = r.view (·.location) := congrArg (·.2.2) same
    rw [order, h.mem_order, isSome_of_view sheets]
  · obtain ⟨t, ht, hlt⟩ := get?_of_places same hs
    obtain ⟨t', ht', hlt'⟩ := get?_of_places same hs'
    exact h.distinct id id' t t' ht ht' (hlt.trans (hl.trans hlt'.symm))
  · rw [next]
    exact h.issued id (order ▸ hid)

/-! ## Lookups by location -/

theorem Indexed.mem_entries {r : Repository σ} (h : r.Indexed) {e : SheetId × Sheet} :
    e ∈ r.entries ↔ r.get? e.1 = some e.2 := by
  obtain ⟨id, s⟩ := e
  unfold entries
  rw [List.mem_filterMap]
  constructor
  · rintro ⟨id', _, he⟩
    obtain ⟨s', hs', heq⟩ := Option.map_eq_some_iff.mp he
    cases heq
    exact hs'
  · intro hs
    dsimp only at hs
    exact ⟨id, (h.mem_order id).mpr (by simp [hs]), by simp [hs]⟩

theorem Indexed.idAt?_eq_some_iff {r : Repository σ} (h : r.Indexed) {location : Location} {id : SheetId} :
    r.idAt? location = some id ↔ ∃ s, r.get? id = some s ∧ s.location = location := by
  unfold idAt?
  constructor
  · intro hf
    obtain ⟨e, he, rfl⟩ := Option.map_eq_some_iff.mp hf
    exact ⟨e.2, h.mem_entries.mp (List.mem_of_find?_eq_some he), by simpa using List.find?_some he⟩
  · rintro ⟨s, hs, rfl⟩
    -- something is found, since `s` would do; and only `s` has its location
    have found : (r.entries.find? fun e => e.2.location == s.location).isSome := by
      rw [List.find?_isSome]
      exact ⟨(id, s), h.mem_entries.mpr hs, by simp⟩
    obtain ⟨e, he⟩ := Option.isSome_iff_exists.mp found
    have hl : e.2.location = s.location := by simpa using List.find?_some he
    have hget := h.mem_entries.mp (List.mem_of_find?_eq_some he)
    rw [he, Option.map_some, h.distinct _ _ _ _ hget hs hl]

theorem Indexed.vacant_of_idAt? {r : Repository σ} (h : r.Indexed) {location : Location}
    (none : r.idAt? location = none) : r.Vacant location := by
  intro id s hs hl
  have found := h.idAt?_eq_some_iff.mpr ⟨s, hs, hl⟩
  rw [none] at found
  cases found

theorem Indexed.locations_nodup {r : Repository σ} (h : r.Indexed) :
    (r.entries.map (·.2.location)).Nodup := by
  have entries : r.entries.Nodup := by
    refine h.nodup.filterMap fun a a' e ha ha' => ?_
    obtain ⟨s, _, rfl⟩ := Option.map_eq_some_iff.mp ha
    obtain ⟨s', _, he⟩ := Option.map_eq_some_iff.mp ha'
    exact (congrArg (·.1) he).symm
  refine entries.map_on fun e he e' he' hl => ?_
  have hs := h.mem_entries.mp he
  have hs' := h.mem_entries.mp he'
  have hid := h.distinct _ _ _ _ hs hs' hl
  rw [hid, hs'] at hs
  exact Prod.ext hid (Option.some.inj hs).symm

/-! ## Sheets that come and go -/

theorem indexed_of_empty {r : Repository σ} (order : r.order = []) (sheets : ∀ id, r.get? id = none) :
    r.Indexed where
  nodup := by rw [order]; exact List.nodup_nil
  mem_order id := by simp [order, sheets id]
  distinct id id' s s' hs := by simp [sheets id] at hs
  issued id hid := by simp [order] at hid

theorem Indexed.get?_next {r : Repository σ} (h : r.Indexed) : r.get? ⟨r.nextIndex⟩ = none := by
  rw [← Option.not_isSome_iff_eq_none, ← h.mem_order]
  exact fun hm => Nat.lt_irrefl _ (h.issued _ hm)

/-- A sheet that comes does not replace one that is loaded. -/
theorem Indexed.get?_insert_of_loaded {r : Repository σ} (h : r.Indexed) (sheet : Sheet) {id : SheetId}
    {s : Sheet} (loaded : r.get? id = some s) : (r.insert sheet).2.get? id = some s := by
  rw [get?_insert, if_neg]
  · exact loaded
  · intro same
    rw [← same, h.get?_next] at loaded
    cases loaded

theorem Indexed.insert {r : Repository σ} (h : r.Indexed) {sheet : Sheet} (new : r.Vacant sheet.location) :
    (r.insert sheet).2.Indexed := by
  have order : (r.insert sheet).2.order = r.order ++ [⟨r.nextIndex⟩] := rfl
  have fresh : ⟨r.nextIndex⟩ ∉ r.order := fun hm => Nat.lt_irrefl _ (h.issued _ hm)
  refine ⟨?_, fun id => ?_, fun id id' s s' hs hs' hl => ?_, fun id hid => ?_⟩
  · rw [order, List.nodup_append]
    refine ⟨h.nodup, List.nodup_singleton _, fun a ha b hb => ?_⟩
    rintro rfl
    exact fresh (List.mem_singleton.mp hb ▸ ha)
  · rw [order, get?_insert, List.mem_append, List.mem_singleton, h.mem_order]
    by_cases hid : ⟨r.nextIndex⟩ = id
    · simp [hid]
    · simp [hid, Ne.symm hid]
  · rw [get?_insert] at hs hs'
    split at hs <;> split at hs'
    · exact ‹_ = id›.symm.trans ‹_ = id'›
    · -- one of the two is the new sheet, whose location was vacant
      cases hs
      exact absurd hl.symm (new id' s' hs')
    · cases hs'
      exact absurd hl (new id s hs)
    · exact h.distinct id id' s s' hs hs' hl
  · rw [order, List.mem_append, List.mem_singleton] at hid
    rcases hid with hid | rfl
    · exact Nat.lt_succ_of_lt (h.issued id hid)
    · exact Nat.lt_succ_self _

/-- A sheet may go, from the table and from the order. -/
theorem Indexed.remove {r r' : Repository σ} (h : r.Indexed) {id : SheetId}
    (order : r'.order = r.order.filter (· ≠ id)) (next : r'.nextIndex = r.nextIndex)
    (sheets : ∀ k, r'.get? k = if id = k then none else r.get? k) : r'.Indexed := by
  refine ⟨?_, fun k => ?_, fun k k' s s' hs hs' hl => ?_, fun k hk => ?_⟩
  · rw [order]
    exact h.nodup.filter _
  · rw [order, sheets, List.mem_filter, h.mem_order]
    by_cases hk : id = k
    · simp [hk]
    · simp [hk, Ne.symm hk]
  · rw [sheets] at hs hs'
    split at hs
    · cases hs
    split at hs'
    · cases hs'
    exact h.distinct k k' s s' hs hs' hl
  · rw [order, List.mem_filter] at hk
    rw [next]
    exact h.issued k hk.1

/-! ## Operations

Each operation either keeps the places, or lets one sheet from a vacant place come, or lets sheets go. -/

theorem places_disableIdleTimer (r : Repository σ) : r.disableIdleTimer.places = r.places := by
  obtain ⟨_, _, h⟩ := r.disableIdleTimer_eq
  rw [h]
  rfl

theorem places_setInterval (r : Repository σ) (interval : Nat) :
    (r.setInterval interval).places = r.places := by
  obtain ⟨_, _, h⟩ := r.setInterval_eq interval
  rw [h]
  rfl

theorem places_advance (r : Repository σ) (milliseconds : Nat) :
    (r.advance milliseconds).places = r.places := by
  obtain ⟨_, _, h⟩ := r.advance_eq milliseconds
  rw [h]
  rfl

theorem places_setActive (r : Repository σ) (id : SheetId) (active : Bool) :
    (r.setActive id active).2.places = r.places := by
  unfold setActive
  cases r.get? id with
  | none => rfl
  | some sheet =>
    dsimp only
    split
    · rfl
    · exact places_update r id fun _ => rfl

theorem places_startMonitoring (r : Repository σ) (id : SheetId) :
    (r.startMonitoring id).places = r.places := by
  unfold startMonitoring
  cases r.get? id with
  | none => rfl
  | some sheet =>
    dsimp only
    split
    · exact places_update _ id fun _ => rfl
    · exact places_update r id fun _ => rfl

theorem Indexed.unload {r : Repository σ} (h : r.Indexed) (id : SheetId) : (r.unload id).2.Indexed := by
  unfold Repository.unload
  cases hs : r.get? id with
  | none => exact h
  | some sheet =>
    have removed : ({ r.discard id with order := r.order.filter (· ≠ id) } : Repository σ).Indexed := by
      refine h.remove rfl ?_ (get?_discard r id)
      -- to end a watch issues no identifier
      simp only [discard, hs, release]
      split <;> rfl
    exact removed.of_places (places_disableIdleTimer _)

theorem indexed_unloadAll (r : Repository σ) : r.unloadAll.Indexed := by
  have emptied : ({ (r.order.foldl discard r).clear with order := [] } : Repository σ).Indexed :=
    indexed_of_empty rfl fun _ => rfl
  exact emptied.of_places (places_disableIdleTimer _)

theorem Indexed.insert_of_outline {r r' : Repository σ} (h : r.Indexed) (same : r'.outline = r.outline)
    (sheet : Sheet) (none : r.idAt? sheet.location = none) : (r'.insert sheet).2.Indexed := by
  have places := places_of_outline same
  exact (h.of_places places).insert ((h.vacant_of_idAt? none).of_places places)

theorem Indexed.register {r : Repository σ} (h : r.Indexed) (sheet : Sheet) :
    (r.register sheet).2.Indexed := by
  unfold Repository.register
  cases vacant : r.idAt? sheet.location with
  | some id => exact h
  | none => exact h.insert (h.vacant_of_idAt? vacant)

theorem Indexed.register_loaded {r : Repository σ} (h : r.Indexed) {id : SheetId} {s : Sheet}
    (loaded : r.get? id = some s) {sheet : Sheet} (same : sheet.location = s.location) :
    r.register sheet = (id, r) := by
  unfold Repository.register
  rw [h.idAt?_eq_some_iff.mpr ⟨s, loaded, same.symm⟩]

variable [Source σ]

theorem Indexed.load {r : Repository σ} (h : r.Indexed) (location : Location) (name group : Option String) :
    (r.load location name group).2.Indexed := by
  have fetched := outline_fetch r location
  rcases r.load_cases location name group with ⟨id, -, done⟩ | ⟨-, e, -, done⟩ | ⟨vacant, content, -, done⟩ <;>
    rw [done]
  · exact h
  · exact h.of_places (places_of_outline fetched)
  · exact h.insert_of_outline fetched _ vacant

theorem Indexed.loadFromBundle {r : Repository σ} (h : r.Indexed) (path : String)
    (name group : Option String) : (r.loadFromBundle path name group).2.Indexed := by
  unfold Repository.loadFromBundle
  split
  · exact h.of_places rfl
  · rename_i source _
    have asked : ({ r with source := source } : Repository σ).Indexed := h.of_places rfl
    exact asked.load ..

theorem Indexed.loadRefreshable {r : Repository σ} (h : r.Indexed) (location : Location)
    (name group : Option String) : (r.loadRefreshable location name group).2.Indexed := by
  rcases r.loadRefreshable_cases location name group with
    ⟨id, -, done⟩ | ⟨-, -, done⟩ | ⟨vacant, -, sheet, rfl, done⟩ <;> rw [done]
  · exact h
  · exact h.of_places rfl
  · -- the sheet is stored before it is read, so it stays even if its first refresh fails
    have same : (r.asked location).outline = r.outline := rfl
    have inserted := h.insert_of_outline same (Sheet.build location .empty name group).refreshable vacant
    have reloaded := inserted.of_places (places_of_outline (outline_reload _ ⟨r.nextIndex⟩ true))
    exact reloaded.of_places (places_startMonitoring ..)

theorem Indexed.perform {r : Repository σ} (h : r.Indexed) (op : Operation σ) : (r.perform op).Indexed := by
  cases op with
  | load location name group => exact h.load ..
  | loadFromBundle path name group => exact h.loadFromBundle ..
  | loadRefreshable location name group => exact h.loadRefreshable ..
  | register sheet => exact h.register sheet
  | setActive id active => exact h.of_places (places_setActive ..)
  | reload id force => exact h.of_places (places_of_outline (outline_reload ..))
  | reloadAll force => exact h.of_places (places_of_outline (outline_reloadAll ..))
  | processPending => exact h.of_places (places_of_outline (outline_processPending r))
  | awaitRequest limit =>
    -- only where nothing is queued does the wait move the clock
    have advanced := h.of_places (places_advance r (r.untilNextPoll limit))
    show (r.awaitRequest limit).2.Indexed
    unfold awaitRequest
    split
    · exact advanced.of_places (places_of_outline (outline_processNext _))
    · exact h.of_places (places_of_outline (outline_processNext _))
  | unload id => exact h.unload id
  | unloadAll => exact indexed_unloadAll r
  | setInterval interval => exact h.of_places (places_setInterval ..)
  | advance milliseconds => exact h.of_places (places_advance ..)
  | enableTimer | disableTimer | subscribe | unsubscribe _ | openChannel | drain _ | hangUp _ | report _
  | changeSource _ => exact h.of_places rfl

/-! ## A location that is loaded -/

theorem Indexed.load_loaded {r : Repository σ} (h : r.Indexed) {id : SheetId} {s : Sheet}
    (loaded : r.get? id = some s) (name group : Option String) :
    r.load s.location name group = (.ok id, r) := by
  unfold Repository.load
  rw [h.idAt?_eq_some_iff.mpr ⟨s, loaded, rfl⟩]

theorem Indexed.loadRefreshable_loaded {r : Repository σ} (h : r.Indexed) {id : SheetId} {s : Sheet}
    (loaded : r.get? id = some s) (name group : Option String) :
    r.loadRefreshable s.location name group = (.ok id, r) := by
  unfold Repository.loadRefreshable
  rw [h.idAt?_eq_some_iff.mpr ⟨s, loaded, rfl⟩]

/-- The source is asked for the name, and for nothing else. -/
theorem Indexed.loadFromBundle_loaded {r : Repository σ} (h : r.Indexed) {id : SheetId} {s : Sheet}
    (loaded : r.get? id = some s) {path : String} {source : σ}
    (resolved : Source.resolveBundle r.source path = (some s.location, source)) (name group : Option String) :
    r.loadFromBundle path name group = (.ok id, { r with source := source }) := by
  have asked : ({ r with source := source } : Repository σ).Indexed := h.of_places rfl
  unfold Repository.loadFromBundle
  rw [resolved]
  exact asked.load_loaded loaded name group

end Repository

/-! ## Runs -/

namespace Owner

variable {σ : Type} [Source σ]

theorem Reaches.indexed {source : σ} {parser : String → Except ParseError Content}
    {board : Option WatchBoard} {config : RefreshConfig} {hasClock : Bool} {o : Owner σ}
    (run : Reaches (fun _ _ => True) (new source parser board config hasClock) o) :
    o.repository.Indexed := by
  refine run.invariant (I := fun o => o.repository.Indexed) ?_ fun o op _ h => h.perform op
  exact Repository.indexed_of_empty rfl fun _ => rfl

/-- Wherever a run leads, the order has no repetition and lists the keys of the table, and the locations of
the loaded sheets differ. So the search for a location answers the one sheet from there, and an operation that
is to load it again answers that sheet and leaves the repository as it is: the sheets, the order, the events,
the watches, the timer and the source, which at most has been asked for a name of the bundle. -/
theorem Reaches.each_location_once {source : σ} {parser : String → Except ParseError Content}
    {board : Option WatchBoard} {config : RefreshConfig} {hasClock : Bool} {o : Owner σ}
    (run : Reaches (fun _ _ => True) (new source parser board config hasClock) o) :
    let r := o.repository
    r.order.Nodup ∧
    (∀ id, id ∈ r.order ↔ (r.get? id).isSome) ∧
    (r.entries.map (·.2.location)).Nodup ∧
    (∀ location id, r.idAt? location = some id ↔ ∃ s, r.get? id = some s ∧ s.location = location) ∧
    ∀ id s, r.get? id = some s →
      (∀ name group, r.load s.location name group = (.ok id, r)) ∧
      (∀ name group, r.loadRefreshable s.location name group = (.ok id, r)) ∧
      (∀ sheet : Sheet, sheet.location = s.location → r.register sheet = (id, r)) ∧
      ∀ path source', Source.resolveBundle r.source path = (some s.location, source') →
        ∀ name group, r.loadFromBundle path name group = (.ok id, { r with source := source' }) := by
  intro r
  have h : r.Indexed := run.indexed
  refine ⟨h.nodup, h.mem_order, h.locations_nodup, fun _ _ => h.idAt?_eq_some_iff, fun id s loaded => ?_⟩
  exact ⟨h.load_loaded loaded, h.loadRefreshable_loaded loaded, fun _ same => h.register_loaded loaded same,
    fun _ _ resolved => h.loadFromBundle_loaded loaded resolved⟩

/-- The location of the sheet that `reopened` loads twice. -/
def menu : Location := ⟨"mem://menu.css"⟩

/-- An owner that loads a sheet, registers another, unloads the first and loads it again. -/
def reopened : Owner MemoryFiles :=
  let files : MemoryFiles := { MemoryFiles.empty with bundle := .ofList [("menu", menu)] }
  let start : Owner MemoryFiles := .new files (fun _ => .ok .empty) (some (.empty none)) .standard true
  ((((start.perform (.changeSource (·.write menu "a"))).perform (.loadRefreshable menu none none)).perform
    (.register (.of ⟨"mem://other.css"⟩ .empty))).perform (.unload ⟨0⟩)).perform (.loadRefreshable menu none none)

/-- The sheet that came back is found under its new identifier, and is not loaded once more. -/
theorem each_location_once_reopened :
    reopened.repository.order = [⟨1⟩, ⟨2⟩] ∧ reopened.repository.idAt? menu = some ⟨2⟩ ∧
      reopened.repository.loadFromBundle "menu" none none = (.ok ⟨2⟩, reopened.repository) := by
  have run : Reaches (fun _ _ => True) (.new _ _ _ _ _) reopened :=
    .step (.step (.step (.step (.step .refl trivial) trivial) trivial) trivial) trivial
  obtain ⟨-, -, -, found, again⟩ := run.each_location_once
  have loaded : ∃ s, reopened.repository.get? ⟨2⟩ = some s ∧ s.location = menu := ⟨_, rfl, rfl⟩
  obtain ⟨s, hs, hl⟩ := loaded
  have kept := (again ⟨2⟩ s hs).2.2.2 "menu" reopened.repository.source
  rw [hl] at kept
  exact ⟨rfl, (found menu ⟨2⟩).mpr ⟨s, hs, hl⟩, kept rfl none none⟩

end Owner

end Stylebook
