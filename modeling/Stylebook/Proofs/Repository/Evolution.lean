import Stylebook.Proofs.Repository.Changes
import Stylebook.Proofs.Source.Shared

/-!
# How sheets in memory evolve

While nobody writes to the files, a repository goes from state to state by operations of its own. `Evolves` says
what is left of a state in a later one: the parser and whatever the files say are the same, identifiers that were
issued are not issued again, and a sheet that is loaded under an old identifier was loaded before, from the same
location, and its content either is what it was or is what its file says.

So an identifier whose sheet has gone stays without a sheet for good (`Gone.perform`). That is what makes it safe
that a request can outlive the sheet it names.
-/

set_option autoImplicit false

namespace Stylebook.Repository

variable {r r' r'' : Repository MemoryFiles} {location : Location} {content : Content}

/-! ## What the files say -/

/-- The file at a location can be read, and its text is understood as some content. -/
def Shows (r : Repository MemoryFiles) (location : Location) (content : Content) : Prop :=
  ∃ text, r.source.contents location = .ok text ∧ r.parser text = .ok content

theorem Shows.unique {content' : Content} (h : r.Shows location content) (h' : r.Shows location content') :
    content = content' := by
  obtain ⟨text, read, understood⟩ := h
  obtain ⟨text', read', understood'⟩ := h'
  cases read.symm.trans read'
  exact Except.ok.inj (understood.symm.trans understood')

theorem shows_iff_of_same (parser : r'.parser = r.parser)
    (contents : r'.source.contents location = r.source.contents location) :
    r'.Shows location content ↔ r.Shows location content := by
  unfold Shows
  rw [parser, contents]

theorem gives_iff_contents {m : MemoryFiles} {text : String} :
    Gives m location text ↔ m.contents location = .ok text := by
  refine ⟨And.right, fun read => ⟨?_, read⟩⟩
  obtain ⟨file, found, -⟩ := MemoryFiles.contents_eq_ok read
  show (m.files.get? location).isSome
  rw [found]
  rfl

/-- A fetch gets what the file says. -/
theorem fetch_eq_ok_iff_shows : (r.fetch location).1 = .ok content ↔ r.Shows location content := by
  rw [fetch_eq_ok]
  simp only [gives_iff_contents, Shows]

theorem contents_fetch (r : Repository MemoryFiles) (location : Location) :
    (r.fetch location).2.source.contents = r.source.contents := by
  have read := r.source.contents_countRead location
  unfold fetch
  split <;> rename_i source there <;> have asked : source = r.source := (congrArg (·.2) there).symm <;>
    subst asked
  · rfl
  · split <;> rename_i source given <;> have counted := (congrArg (·.2) given).symm <;> subst counted <;>
      exact read

/-! ## Evolution -/

/-- A sheet under an old identifier was there before, and what is new in it is what its file says. -/
structure Descends (r : Repository MemoryFiles) (s s' : Sheet) : Prop where
  location : s'.location = s.location
  refreshable : s'.isRefreshable = s.isRefreshable
  content : s'.content = s.content ∨ r.Shows s.location s'.content

theorem Descends.refl (r : Repository MemoryFiles) (s : Sheet) : r.Descends s s :=
  ⟨rfl, rfl, .inl rfl⟩

/-- What is left of `r` in `r'`. -/
structure Evolves (r r' : Repository MemoryFiles) : Prop where
  parser : r'.parser = r.parser
  contents : r'.source.contents = r.source.contents
  nextIndex : r.nextIndex ≤ r'.nextIndex
  sheets : ∀ id s', r'.get? id = some s' → id.index < r.nextIndex →
    ∃ s, r.get? id = some s ∧ r.Descends s s'

namespace Evolves

theorem shows (on : r.Evolves r') : r'.Shows location content ↔ r.Shows location content :=
  shows_iff_of_same on.parser (congrFun on.contents location)

theorem refl (r : Repository MemoryFiles) : r.Evolves r :=
  ⟨rfl, rfl, Nat.le_refl _, fun _ s loaded _ => ⟨s, loaded, .refl r s⟩⟩

theorem trans (first : r.Evolves r') (second : r'.Evolves r'') : r.Evolves r'' := by
  refine ⟨second.parser.trans first.parser, second.contents.trans first.contents,
    Nat.le_trans first.nextIndex second.nextIndex, ?_⟩
  intro id s'' loaded'' old
  obtain ⟨s', loaded', from'⟩ := second.sheets id s'' loaded'' (Nat.lt_of_lt_of_le old first.nextIndex)
  obtain ⟨s, loaded, from''⟩ := first.sheets id s' loaded' old
  refine ⟨s, loaded, from'.location.trans from''.location, from'.refreshable.trans from''.refreshable, ?_⟩
  rcases from'.content with kept | shown
  · rw [kept]
    exact from''.content
  · -- what the file said later, it said from the start
    rw [from''.location] at shown
    exact .inr (first.shows.mp shown)

/-- Sheets may go, and no others come. -/
theorem of_sheets (parser : r'.parser = r.parser) (contents : r'.source.contents = r.source.contents)
    (nextIndex : r'.nextIndex = r.nextIndex)
    (sheets : ∀ id s', r'.get? id = some s' → ∃ s, r.get? id = some s ∧ r.Descends s s') : r.Evolves r' :=
  ⟨parser, contents, Nat.le_of_eq nextIndex.symm, fun id s' loaded _ => sheets id s' loaded⟩

/-- The files say the same in both, so a sheet descends from another in both or in neither. -/
theorem descends (on : r.Evolves r') {s t : Sheet} (h : r.Descends s t) : r'.Descends s t :=
  ⟨h.location, h.refreshable, h.content.imp_right on.shows.mpr⟩

theorem of_same (sheets : r'.sheets = r.sheets) (parser : r'.parser = r.parser)
    (contents : r'.source.contents = r.source.contents) (nextIndex : r'.nextIndex = r.nextIndex) :
    r.Evolves r' := by
  refine of_sheets parser contents nextIndex fun id s loaded => ⟨s, ?_, .refl r s⟩
  rwa [get?, sheets] at loaded

theorem foldl {α : Type} {f : Repository MemoryFiles → α → Repository MemoryFiles}
    (step : ∀ (r : Repository MemoryFiles) a, r.Evolves (f r a)) (row : List α) (r : Repository MemoryFiles) :
    r.Evolves (row.foldl f r) := by
  induction row generalizing r with
  | nil => exact refl r
  | cons a rest ih => exact (step r a).trans (ih _)

end Evolves

/-! ## Small changes -/

theorem evolves_fetch (r : Repository MemoryFiles) (location : Location) : r.Evolves (r.fetch location).2 :=
  .of_same (sheets_fetch ..) (parser_fetch ..) (contents_fetch ..)
    (congrArg Outline.nextIndex (outline_fetch r location))

theorem evolves_emit (r : Repository MemoryFiles) (e : Event) : r.Evolves (r.emit e) :=
  .of_same rfl rfl rfl rfl

theorem nextIndex_update {σ : Type} (r : Repository σ) (id : SheetId) (f : Sheet → Sheet) :
    (r.update id f).nextIndex = r.nextIndex := by
  unfold update
  split <;> rfl

theorem evolves_update (r : Repository MemoryFiles) (id : SheetId) {f : Sheet → Sheet}
    (descends : ∀ s, r.get? id = some s → r.Descends s (f s)) : r.Evolves (r.update id f) := by
  refine .of_sheets (parser_update ..) (by rw [source_update]) (nextIndex_update ..) fun k s' loaded => ?_
  rw [get?_update] at loaded
  split at loaded
  · rename_i same
    subst same
    obtain ⟨s, there, rfl⟩ := Option.map_eq_some_iff.mp loaded
    exact ⟨s, there, descends s there⟩
  · exact ⟨s', loaded, .refl r s'⟩

/-- Whatever a fetch answers, the sheet descends. -/
theorem descends_afterFetch (r : Repository MemoryFiles) (s : Sheet) (revision : Option Revision) (now : Nat) :
    r.Descends s (s.afterFetch revision now (r.fetch s.location).1) := by
  have outline := Sheet.outline_afterFetch revision now (r.fetch s.location).1 s
  have location : (s.afterFetch revision now (r.fetch s.location).1).outline.location = s.outline.location :=
    congrArg Sheet.location outline
  refine ⟨location, ?_, ?_⟩
  · rw [← Sheet.isRefreshable_outline, outline, Sheet.isRefreshable_outline]
  · cases fetched : (r.fetch s.location).1 with
    | ok content => exact .inr (fetch_eq_ok_iff_shows.mp fetched)
    | error e => exact .inl (Sheet.content_afterFetch_error ..)

theorem evolves_reread {id : SheetId} {s : Sheet} (loaded : r.get? id = some s) : r.Evolves (r.reread id s) := by
  have fetched := evolves_fetch r s.location
  refine fetched.trans (evolves_update _ id fun t there => ?_)
  -- what was fetched is for the sheet that is there
  have same : (r.fetch s.location).2.get? id = r.get? id := by
    rw [get?, sheets_fetch]
    rfl
  cases there.symm.trans (same.trans loaded)
  exact fetched.descends (descends_afterFetch r s _ _)

theorem evolves_refresh (r : Repository MemoryFiles) (id : SheetId) (force : Bool) :
    r.Evolves (r.refresh id force).2 := by
  cases loaded : r.get? id with
  | none =>
    unfold refresh
    rw [loaded]
    exact .refl r
  | some s =>
    rcases refresh_cases loaded force with ⟨-, -, done⟩ | ⟨-, outcome, -, done⟩ <;> rw [done]
    · exact evolves_emit r _
    · exact (evolves_reread loaded).trans (evolves_emit ..)

theorem evolves_insert (r : Repository MemoryFiles) (sheet : Sheet) : r.Evolves (r.insert sheet).2 := by
  refine ⟨rfl, rfl, Nat.le_succ _, fun id s' loaded old => ⟨s', ?_, .refl r s'⟩⟩
  rw [get?_insert] at loaded
  split at loaded
  · -- the new sheet has a new identifier
    rename_i new
    rw [← new] at old
    exact absurd old (Nat.lt_irrefl _)
  · exact loaded

theorem Change.evolves {Guest : Sheet → Prop} (change : Change Guest r r') : r.Evolves r' := by
  cases change with
  | aside h => exact .of_same h.sheets h.parser (by rw [h.source]) h.nextIndex
  | resolve path => exact .of_same rfl rfl rfl rfl
  | ask location => exact .of_same rfl rfl rfl rfl
  | fetch location => exact evolves_fetch r location
  | refresh id force => exact evolves_refresh r id force
  | insert => exact evolves_insert r _
  | adjust id version refreshable =>
    refine evolves_update r id fun s _ => ⟨?_, refreshable s, .inl ?_⟩
    · exact congrArg (·.1) (version s)
    · exact congrArg (·.2.1) (version s)
  | erase id =>
    refine .of_sheets rfl rfl rfl fun k s loaded => ⟨s, ?_, .refl r s⟩
    have erased : (r.sheets.erase id).get? k = some s := loaded
    rw [Table.get?_erase] at erased
    split at erased
    · cases erased
    · exact erased
  | clear =>
    refine .of_sheets rfl rfl rfl fun k s loaded => ?_
    cases loaded

theorem Changes.evolves {Guest : Sheet → Prop} (row : Changes Guest r r') : r.Evolves r' :=
  row.relates .refl .trans Change.evolves

/-! ## Operations -/

theorem evolves_handle (r : Repository MemoryFiles) (request : Request) : r.Evolves (r.handle request) := by
  have row : Changes (fun _ => False) r (r.handle request) := changes_handle r request
  exact row.evolves

theorem evolves_processNext (r : Repository MemoryFiles) : r.Evolves r.processNext.2 := by
  unfold processNext
  cases r.queue with
  | nil => exact .refl r
  | cons request rest =>
    have taken : r.Evolves { r with queue := rest } := .of_same rfl rfl rfl rfl
    exact taken.trans (evolves_handle _ request)

/-- **Every operation evolves a repository**, unless someone else changes the source. -/
theorem evolves_perform (r : Repository MemoryFiles) {op : Operation MemoryFiles}
    (own : ∀ change, op ≠ .changeSource change) : r.Evolves (r.perform op) := by
  cases op with
  | processPending =>
    have taken : r.Evolves { r with queue := [] } := .of_same rfl rfl rfl rfl
    exact taken.trans (.foldl evolves_handle ..)
  | awaitRequest limit =>
    have row : Changes (fun _ => False) r (r.waiting limit) := changes_waiting r limit
    show r.Evolves (r.awaitRequest limit).2
    rw [awaitRequest_eq]
    exact row.evolves.trans (evolves_processNext _)
  | changeSource change => exact absurd rfl (own change)
  | _ => exact Changes.evolves (changes_perform r trivial)

theorem parser_perform (r : Repository MemoryFiles) (op : Operation MemoryFiles) :
    (r.perform op).parser = r.parser := by
  by_cases own : ∃ change, op = .changeSource change
  · obtain ⟨change, rfl⟩ := own
    rfl
  · exact (r.evolves_perform fun change same => own ⟨change, same⟩).parser

/-! ## Identifiers without a sheet -/

/-- An identifier was issued, and its sheet is not loaded any more. -/
structure Gone (r : Repository MemoryFiles) (id : SheetId) : Prop where
  issued : id.index < r.nextIndex
  unloaded : r.get? id = none

theorem Gone.evolves {id : SheetId} (h : r.Gone id) (on : r.Evolves r') : r'.Gone id := by
  refine ⟨Nat.lt_of_lt_of_le h.issued on.nextIndex, ?_⟩
  cases loaded : r'.get? id with
  | none => rfl
  | some s' =>
    obtain ⟨s, before, -⟩ := on.sheets id s' loaded h.issued
    cases h.unloaded.symm.trans before

/-- **A sheet that has gone does not come back under its identifier**, whatever happens, to the source too. -/
theorem Gone.perform {id : SheetId} (h : r.Gone id) (op : Operation MemoryFiles) : (r.perform op).Gone id := by
  by_cases own : ∃ change, op = .changeSource change
  · obtain ⟨change, rfl⟩ := own
    exact ⟨h.issued, h.unloaded⟩
  · exact h.evolves (r.evolves_perform fun change same => own ⟨change, same⟩)

end Stylebook.Repository
