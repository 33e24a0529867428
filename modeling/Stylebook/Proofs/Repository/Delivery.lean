import Stylebook.Proofs.Repository.Draining
import Stylebook.Proofs.Repository.Evolution
import Stylebook.Proofs.Repository.Watches

/-!
# Reported changes reach their sheets

A change of a watched file is reported to the board, which queues a request for the sheet that holds the watch; the
request is handled whenever the owner comes to it. In between the sheet may be unloaded, its location loaded again
under another identifier, other requests handled, and so on, in any order.

Three things are shown of this. A request finds its sheet: the watches of the board are those that the loaded sheets
hold, and a report of a watched location queues one request, for the one sheet from there. A request harms no other
sheet: it changes at most the sheet it names, and nothing once that has gone. And no change is lost: from the report
on, either the request is still queued, or the sheet has the content that its file has (`Pledged`), so that once
everything queued is handled the sheet is up to date.
-/

set_option autoImplicit false

namespace Stylebook

/-- Only a refreshable sheet holds a watch. -/
theorem Sheet.isRefreshable_of_watch {s : Sheet} {number : Nat} (held : s.watch? = some number) :
    s.isRefreshable = true := by
  obtain ⟨state, refresh, -⟩ := Option.bind_eq_some_iff.mp held
  unfold isRefreshable
  rw [refresh]
  rfl

namespace Repository

section Watches

variable {σ : Type} {r : Repository σ} {w : Watch}

/-! ## Watches and sheets -/

/-- The watches on the board. -/
def liveWatches (r : Repository σ) : List Watch :=
  r.board.elim [] (·.watches)

/-- The watches that loaded sheets hold, each with the location and the identifier of its sheet. -/
def heldWatches (r : Repository σ) : List Watch :=
  r.order.filterMap fun id => (r.get? id).bind fun s => s.watch?.map fun number => ⟨number, s.location, id⟩

theorem mem_liveWatches : w ∈ r.liveWatches ↔ r.Live w := by
  unfold liveWatches Live
  cases r.board <;> simp

theorem Indexed.mem_heldWatches (h : r.Indexed) :
    w ∈ r.heldWatches ↔ ∃ s, r.get? w.sheet = some s ∧ s.location = w.location ∧ s.watch? = some w.number := by
  unfold heldWatches
  rw [List.mem_filterMap]
  constructor
  · rintro ⟨id, -, found⟩
    obtain ⟨s, loaded, held⟩ := Option.bind_eq_some_iff.mp found
    obtain ⟨number, has, rfl⟩ := Option.map_eq_some_iff.mp held
    exact ⟨s, loaded, rfl, has⟩
  · rintro ⟨s, loaded, location, has⟩
    refine ⟨w.sheet, (h.mem_order _).mpr (by rw [loaded]; rfl), ?_⟩
    rw [loaded, Option.bind_some, has, Option.map_some, location]

/-- The watches of the board correspond to those that sheets hold, one to one. -/
theorem Watched.perm_watches (h : r.Watched) (indexed : r.Indexed) : r.liveWatches.Perm r.heldWatches := by
  have live : r.liveWatches.Nodup := by
    unfold liveWatches
    cases board : r.board with
    | none => exact List.nodup_nil
    | some b => exact (h.distinct b board).of_map
  have held : r.heldWatches.Nodup := by
    refine indexed.nodup.filterMap fun id id' w found found' => ?_
    -- a watch names the sheet that it is for
    obtain ⟨s, -, held⟩ := Option.bind_eq_some_iff.mp found
    obtain ⟨s', -, held'⟩ := Option.bind_eq_some_iff.mp found'
    obtain ⟨number, -, rfl⟩ := Option.map_eq_some_iff.mp held
    obtain ⟨number', -, same⟩ := Option.map_eq_some_iff.mp held'
    exact (congrArg Watch.sheet same).symm
  refine (List.perm_ext_iff_of_nodup live held).mpr fun w => ?_
  rw [mem_liveWatches, indexed.mem_heldWatches]
  constructor
  · exact h.owned w
  · rintro ⟨s, loaded, location, has⟩
    have there := h.held w.sheet s w.number loaded has
    rwa [location] at there

/-- No two watches are on the same location, since no two sheets are from there. -/
theorem Watched.eq_of_location (h : r.Watched) (indexed : r.Indexed) {w' : Watch} (live : r.Live w)
    (live' : r.Live w') (same : w'.location = w.location) : w' = w := by
  obtain ⟨s, loaded, location, has⟩ := h.owned w live
  obtain ⟨s', loaded', location', has'⟩ := h.owned w' live'
  have sheet := indexed.distinct _ _ _ _ loaded' loaded (location'.trans (same.trans location.symm))
  rw [sheet, loaded] at loaded'
  cases loaded'
  exact h.eq_of_number live' live (Option.some.inj (has'.symm.trans has))

/-- A report of a watched location queues one request, for the sheet that holds the watch. -/
theorem Watched.report_eq (h : r.Watched) (indexed : r.Indexed) (live : r.Live w) :
    r.report w.location = (true, r.requeue (r.queue ++ [.modified w.sheet])) := by
  obtain ⟨b, board, there⟩ := live
  have only : b.watches.filter (·.location = w.location) = [w] := by
    apply List.perm_singleton.mp
    refine (List.perm_ext_iff_of_nodup ((h.distinct b board).of_map.filter _) (List.nodup_singleton w)).mpr ?_
    intro w'
    simp only [List.mem_filter, List.mem_singleton, decide_eq_true_eq]
    constructor
    · rintro ⟨there', same⟩
      exact h.eq_of_location indexed ⟨b, board, there⟩ ⟨b, board, there'⟩ same
    · rintro rfl
      exact ⟨there, rfl⟩
  have watching : b.watching w.location = [w.sheet] := by
    rw [WatchBoard.watching, only]
    rfl
  unfold report requeue
  simp only [board, watching]
  rfl

variable [Source σ]

/-! ## Requests and other sheets -/

theorem get?_handle_of_ne {id k : SheetId} (other : id ≠ k) :
    (r.handle (.modified id)).get? k = r.get? k :=
  get?_reload_of_ne other true

/-- A request for a sheet that is not loaded does nothing at all. -/
theorem handle_of_unloaded {id : SheetId} (unloaded : r.get? id = none) : r.handle (.modified id) = r := by
  show (r.reload id true).2 = r
  unfold reload
  rw [unloaded]

end Watches

/-! ## Changes that are not seen yet -/

section Pledges

variable {r r' : Repository MemoryFiles} {id : SheetId} {location : Location} {pending pending' : Prop}

/-- The sheet has the content that its file has, unless its request is still `pending`. -/
structure Pledged (r : Repository MemoryFiles) (id : SheetId) (location : Location) (pending : Prop) : Prop where
  issued : id.index < r.nextIndex
  sheet : ∀ s, r.get? id = some s → s.location = location ∧ s.isRefreshable = true
  seen : ∀ s content, r.get? id = some s → r.Shows location content → pending ∨ s.content = content

theorem Pledged.mono (h : r.Pledged id location pending) (weaker : pending → pending') :
    r.Pledged id location pending' :=
  ⟨h.issued, h.sheet, fun s content loaded shown => (h.seen s content loaded shown).imp_left weaker⟩

/-- What has been seen stays seen, while the files stay as they are. -/
theorem Pledged.evolves (h : r.Pledged id location pending) (on : r.Evolves r') :
    r'.Pledged id location pending := by
  refine ⟨Nat.lt_of_lt_of_le h.issued on.nextIndex, fun s' loaded => ?_, fun s' content loaded shown => ?_⟩ <;>
    obtain ⟨s, before, from'⟩ := on.sheets id s' loaded h.issued <;>
    obtain ⟨place, refreshable⟩ := h.sheet s before
  · exact ⟨from'.location.trans place, from'.refreshable.trans refreshable⟩
  · rcases from'.content with kept | read
    · rw [kept]
      exact h.seen s content before (on.shows.mp shown)
    · -- content that was read is what the file says
      rw [place] at read
      exact .inr (read.unique (on.shows.mp shown))

/-- To handle the request of a sheet is to see what its file says. -/
theorem Pledged.handle_modified (h : r.Pledged id location pending) :
    (r.handle (.modified id)).Pledged id location False := by
  have on := r.evolves_handle (.modified id)
  have after := h.evolves on
  refine ⟨after.issued, after.sheet, fun s' content loaded' shown => .inr ?_⟩
  obtain ⟨s, loaded, -⟩ := on.sheets id s' loaded' h.issued
  obtain ⟨rfl, refreshable⟩ := h.sheet s loaded
  let told := r.emit (.willRefresh (some id))
  have handled : r.handle (.modified id) = (told.refresh id true).2 :=
    congrArg (·.2) (reload_of_refreshable loaded refreshable true)
  have there : told.get? id = some s := loaded
  have fetched : (told.fetch s.location).1 = .ok content := fetch_eq_ok_iff_shows.mpr (on.shows.mp shown)
  rw [handled] at loaded'
  -- the refresh is forced, so the file is read
  rcases refresh_cases there true with ⟨unforced, -, -⟩ | ⟨-, outcome, -, done⟩
  · cases unforced
  · rw [done, get?_emit, get?_reread there, if_pos rfl] at loaded'
    cases loaded'
    have dated : told.dated s.location = told := rfl
    rw [dated, fetched, Sheet.content_afterFetch_ok]

/-- By induction on the requests: the one of the sheet is handled somewhere among them. -/
theorem Pledged.foldl_handle {requests : List Request} (h : r.Pledged id location (.modified id ∈ requests)) :
    (requests.foldl Repository.handle r).Pledged id location False := by
  induction requests generalizing r with
  | nil => exact h.mono (List.not_mem_nil)
  | cons request rest ih =>
    apply ih
    by_cases own : request = .modified id
    · rw [own]
      exact h.handle_modified.mono False.elim
    · refine (h.evolves (r.evolves_handle request)).mono fun queued => ?_
      exact (List.mem_cons.mp queued).resolve_left (Ne.symm own)

theorem Pledged.processPending (h : r.Pledged id location (.modified id ∈ r.queue)) :
    r.processPending.2.Pledged id location False := by
  have taken : (r.requeue []).Pledged id location (.modified id ∈ r.queue) := h.evolves (.of_same rfl rfl rfl rfl)
  exact taken.foldl_handle

theorem Pledged.processNext (h : r.Pledged id location (.modified id ∈ r.queue)) :
    r.processNext.2.Pledged id location (.modified id ∈ r.processNext.2.queue) := by
  cases queued : r.queue with
  | nil =>
    have idle : r.processNext.2 = r := by
      unfold Repository.processNext
      rw [queued]
    rw [idle]
    exact h
  | cons request rest =>
    rw [processNext_of_cons queued]
    have taken : (r.requeue rest).Pledged id location (.modified id ∈ r.queue) :=
      h.evolves (.of_same rfl rfl rfl rfl)
    by_cases own : request = .modified id
    · rw [own]
      exact taken.handle_modified.mono False.elim
    · refine (taken.evolves (evolves_handle _ request)).mono fun waits => ?_
      rw [queue_handle]
      rw [queued] at waits
      exact (List.mem_cons.mp waits).resolve_left (Ne.symm own)

/-- **No operation loses a change**, as long as nobody writes to the file. -/
theorem Pledged.perform (h : r.Pledged id location (.modified id ∈ r.queue)) {op : Operation MemoryFiles}
    (still : ∀ change, op = .changeSource change →
      (change r.source).contents location = r.source.contents location) :
    (r.perform op).Pledged id location (.modified id ∈ (r.perform op).queue) := by
  have row : ∀ {r'}, Changes (fun sheet => op = .register sheet) r r' →
      r'.Pledged id location (.modified id ∈ r'.queue) :=
    fun row => (h.evolves row.evolves).mono fun queued => row.queue.subset queued
  cases op with
  | processPending => exact h.processPending.mono False.elim
  | awaitRequest limit =>
    show (r.awaitRequest limit).2.Pledged id location (.modified id ∈ (r.awaitRequest limit).2.queue)
    rw [awaitRequest_eq]
    exact (row (changes_waiting r limit)).processNext
  | changeSource change =>
    have same : ∀ content, (r.perform (.changeSource change)).Shows location content ↔ r.Shows location content :=
      fun _ => shows_iff_of_same rfl (still change rfl)
    exact ⟨h.issued, h.sheet, fun s content loaded shown => h.seen s content loaded ((same content).mp shown)⟩
  | _ => exact row (changes_perform r trivial)

/-- A request has been queued for the sheet. -/
theorem pledged_of_queued {s : Sheet} (loaded : r.get? id = some s) (issued : id.index < r.nextIndex)
    (refreshable : s.isRefreshable = true) (queued : .modified id ∈ r.queue) :
    r.Pledged id s.location (.modified id ∈ r.queue) := by
  refine ⟨issued, fun t there => ?_, fun _ _ _ _ => .inl queued⟩
  cases loaded.symm.trans there
  exact ⟨rfl, refreshable⟩

/-- The identifier of a sheet that is unloaded is issued to no other. -/
theorem Indexed.gone_of_unloaded (h : r.Indexed) {s : Sheet} (loaded : r.get? id = some s)
    {op : Operation MemoryFiles} (unloads : op = .unload id ∨ op = .unloadAll) : (r.perform op).Gone id := by
  have listed : id ∈ r.order := (h.mem_order id).mpr (by rw [loaded]; rfl)
  have on : r.Evolves (r.perform op) := by
    apply evolves_perform
    rcases unloads with rfl | rfl <;> exact nofun
  refine ⟨Nat.lt_of_lt_of_le (h.issued id listed) on.nextIndex, ?_⟩
  rcases unloads with rfl | rfl
  · exact (get?_unload r id id).trans (if_pos rfl)
  · exact get?_unloadAll r id

end Pledges

end Repository

/-! ## Runs -/

namespace Owner

open Repository

variable {files : MemoryFiles} {parser : String → Except ParseError Content} {only : Option (List Location)}
  {config : RefreshConfig} {hasClock : Bool} {o o' : Owner MemoryFiles}

/-- Whoever changes the source leaves alone what can be read at a location. -/
def Still (location : Location) (o : Owner MemoryFiles) (op : Operation MemoryFiles) : Prop :=
  ∀ change, op = .changeSource change →
    (change o.repository.source).contents location = o.repository.source.contents location

/-- From the report of a change on, the sheet is pledged to see it. -/
theorem Reaches.pledged {id : SheetId} {location : Location}
    (run : Reaches (Still location) o o')
    (pledged : o.repository.Pledged id location (.modified id ∈ o.repository.queue)) :
    o'.repository.Pledged id location (.modified id ∈ o'.repository.queue) := by
  refine run.invariant (I := fun o => o.repository.Pledged id location (.modified id ∈ o.repository.queue))
    pledged ?_
  exact fun _ _ still pledged => pledged.perform still

theorem Reaches.parser_eq {allowed : Owner MemoryFiles → Operation MemoryFiles → Prop}
    (run : Reaches allowed o o') : o'.repository.parser = o.repository.parser :=
  run.invariant (I := fun o' => o'.repository.parser = o.repository.parser) rfl
    fun o op _ same => (o.repository.parser_perform op).trans same

/-- Wherever a run leads, with files and a board of watches that accepts some locations or all:

* the watches of the board are those that the loaded sheets hold, each with the location and the identifier of its
  sheet;
* a report of a watched location queues one request, for the sheet that holds the watch;
* handling the oldest request until none is left handles each queued request once, in order, and `processPending`
  does just that, leaves nothing queued and answers how many there were;
* a request changes no sheet but the one that it names, and if that is unloaded it does nothing at all, ever after,
  whether its location is loaded again or not;
* if the location of a watched sheet is reported, and from then on nobody changes what can be read there, then once
  everything that is queued is handled, whatever else has happened in between, the sheet, if it is still there, has
  the content of its file, if the file can be read and understood. -/
theorem Reaches.changes_delivered
    (run : Reaches Unbound (new files parser (some (.empty only)) config hasClock) o) :
    let r := o.repository
    r.liveWatches.Perm r.heldWatches ∧
    (∀ w ∈ r.liveWatches, r.report w.location = (true, r.requeue (r.queue ++ [.modified w.sheet]))) ∧
    (∀ handled r', r.Drains handled r' ↔ handled = r.queue ∧ r' = r.processPending.2) ∧
    r.processPending.2.queue = [] ∧ r.processPending.1 = r.queue.length ∧
    (∀ id k, id ≠ k → (r.handle (.modified id)).get? k = r.get? k) ∧
    (∀ id s op o', r.get? id = some s → op = .unload id ∨ op = .unloadAll →
      Reaches (fun _ _ => True) (o.perform op) o' → o'.repository.handle (.modified id) = o'.repository) ∧
    ∀ id s number o', r.get? id = some s → s.watch? = some number →
      Reaches (Still s.location) (o.perform (.report s.location)) o' →
        ∀ s' file content, (o'.perform .processPending).repository.get? id = some s' →
          (o'.perform .processPending).repository.source.files.get? s.location = some file →
            file.unavailable = false → parser file.text = .ok content → s'.content = content := by
  intro r
  obtain ⟨indexed, watched⟩ := run.watched (fun b board => by cases board; rfl)
  refine ⟨watched.perm_watches indexed, fun w live => watched.report_eq indexed (mem_liveWatches.mp live),
    fun _ _ => drains_iff, queue_processPending r, rfl, fun _ _ => get?_handle_of_ne, ?_, ?_⟩
  · intro id s op o' loaded unloads after
    have gone := after.invariant (I := fun o => o.repository.Gone id) (indexed.gone_of_unloaded loaded unloads)
      fun _ op _ gone => gone.perform op
    exact handle_of_unloaded gone.unloaded
  · intro id s number o' loaded held after s' file content there found available understood
    have reported : (o.perform (.report s.location)).repository = r.requeue (r.queue ++ [.modified id]) :=
      congrArg (·.2) (watched.report_eq indexed (watched.held id s number loaded held))
    have pledged : (r.requeue (r.queue ++ [.modified id])).Pledged id s.location _ :=
      pledged_of_queued loaded (indexed.issued id ((indexed.mem_order id).mpr (by rw [loaded]; rfl)))
        (Sheet.isRefreshable_of_watch held) (List.mem_append_right _ (List.mem_singleton_self _))
    rw [← reported] at pledged
    have seen := (after.pledged pledged).processPending
    have same : (o'.perform .processPending).repository.parser = parser :=
      (parser_perform _ _).trans (after.parser_eq.trans ((parser_perform _ _).trans run.parser_eq))
    have read := MemoryFiles.contents_eq_ok_iff.mpr ⟨file, found, available, rfl⟩
    exact (seen.seen s' content there ⟨file.text, read, same ▸ understood⟩).resolve_left not_false

/-- An owner whose watched sheet is older than its file. -/
def behind : Owner MemoryFiles :=
  let start : Owner MemoryFiles :=
    .new .empty (fun text => .ok (Content.empty.define "text" text)) (some (.empty none)) .standard true
  ((start.perform (.changeSource (·.write menu "old"))).perform (.loadRefreshable menu none none)).perform
    (.changeSource (·.write menu "new"))

/-- Between the report and the draining the owner registers another sheet, and the new text arrives; and where the
sheet is unloaded and its location loaded again, a request for the old sheet does nothing. -/
theorem changes_delivered_behind :
    (∃ s s', behind.repository.get? ⟨0⟩ = some s ∧ s.valueOf? "text" = some "old" ∧
      (((behind.perform (.report menu)).perform (.register (.of ⟨"mem://other.css"⟩ .empty))).perform
        .processPending).repository.get? ⟨0⟩ = some s' ∧ s'.valueOf? "text" = some "new") ∧
    let again := (behind.perform (.unload ⟨0⟩)).perform (.loadRefreshable menu none none)
    again.repository.idAt? menu = some ⟨1⟩ ∧ again.repository.handle (.modified ⟨0⟩) = again.repository := by
  have run : Reaches Unbound (.new _ _ (some (.empty none)) _ _) behind :=
    .step (.step (.step .refl trivial) trivial) trivial
  obtain ⟨-, -, -, -, -, -, gone, seen⟩ := run.changes_delivered
  have loaded : ∃ s, behind.repository.get? ⟨0⟩ = some s ∧ s.location = menu ∧ s.watch? = some 1 ∧
      s.valueOf? "text" = some "old" := ⟨_, rfl, rfl, rfl, rfl⟩
  obtain ⟨s, loaded, place, held, old⟩ := loaded
  refine ⟨?_, rfl, gone ⟨0⟩ s _ _ loaded (.inl rfl) (.step .refl trivial)⟩
  have drained : ∃ s', (((behind.perform (.report s.location)).perform
      (.register (.of ⟨"mem://other.css"⟩ .empty))).perform .processPending).repository.get? ⟨0⟩ = some s' := by
    rw [place]
    exact ⟨_, rfl⟩
  obtain ⟨s', drained⟩ := drained
  have after : Reaches (Still s.location) (behind.perform (.report s.location))
      ((behind.perform (.report s.location)).perform (.register (.of ⟨"mem://other.css"⟩ .empty))) :=
    .step .refl fun _ => nofun
  have content := seen ⟨0⟩ s 1 _ loaded held after s' ⟨"new", 2, 2, false⟩ _ drained
    (by rw [place]; rfl) rfl rfl
  rw [place] at drained
  refine ⟨s, s', loaded, old, drained, ?_⟩
  rw [Sheet.valueOf?, content]
  rfl

end Owner

end Stylebook
