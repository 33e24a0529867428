import Stylebook.Proofs.Repository.Changes
import Stylebook.Proofs.Source.Shared

/-!
# No stale content

A refresh that is not forced leaves a sheet alone if its source bears the revision that is recorded for the
sheet. It asks for the revision first and reads afterwards, and someone else may write in between; so the
text that was read can be younger than the revision that was recorded with it. That is the harmless order of
the two: the next refresh sees another revision and reads again. The other order would lose an update.

`Sheet.Current` is the invariant behind this: whatever file bears the recorded revision, if its text can be
understood then it is the content of the sheet. It speaks of a file of a later moment as well, since a
revision never comes to stand for another text, and it allows a text that could not be understood, whose
revision is recorded while the content stays. `Repository.Onward` is what every operation satisfies.
-/

set_option autoImplicit false

namespace Stylebook

variable {parser : String → Except ParseError Content}

/-! ## Sheets -/

namespace Sheet

/-- A file that bears the recorded revision has the content of the sheet, if it can be understood. -/
def Current (s : Sheet) (parser : String → Except ParseError Content) (m : MemoryFiles) : Prop :=
  ∀ revision, s.loadedRevision? = some revision → ∃ n ≤ m.clock, revision = m.stamp n ∧
    ∀ file content, m.files.get? s.location = some file → file.revision = n →
      parser file.text = .ok content → s.content = content

theorem current_of_unknown {s : Sheet} {m : MemoryFiles} (unknown : s.loadedRevision? = none) :
    s.Current parser m := by
  intro revision h
  rw [unknown] at h
  cases h

theorem Current.of_version {s t : Sheet} {m : MemoryFiles} (h : s.Current parser m)
    (same : t.version = s.version) : t.Current parser m := by
  have location : t.location = s.location := congrArg (·.1) same
  have content : t.content = s.content := congrArg (·.2.1) same
  have loaded : t.loadedRevision? = s.loadedRevision? := congrArg (·.2.2) same
  unfold Current
  rw [location, content, loaded]
  exact h

theorem Current.mono {s : Sheet} {m m' : MemoryFiles} (h : s.Current parser m) (later : m.Later m') :
    s.Current parser m' := by
  intro revision loaded
  obtain ⟨n, past, rfl, text⟩ := h revision loaded
  refine ⟨n, Nat.le_trans past later.clock, (later.stamp n).symm, ?_⟩
  intro file' content hf' hn understood
  rcases later.files s.location file' hf' with ⟨young, -⟩ | ⟨file, hf, sameRevision, sameText⟩
  · -- a file that was written since bears a younger revision
    exact absurd (hn ▸ young) (Nat.not_lt.mpr past)
  · exact text file content hf (sameRevision.trans hn) (sameText ▸ understood)

end Sheet

/-- The answer of a fetch comes from the text that was at the location in `m`. -/
structure ReadFrom (parser : String → Except ParseError Content) (location : Location) (m : MemoryFiles)
    (fetched : Except StyleError Content) : Prop where
  understood : ∀ content, fetched = .ok content →
    ∃ file, m.files.get? location = some file ∧ parser file.text = .ok content
  garbled : ∀ l cause, fetched = .error (.parseFailed l cause) →
    ∃ file, m.files.get? location = some file ∧ parser file.text = .error cause

/-- A sheet is current if its content was read no earlier than its revision was asked for. -/
theorem Sheet.current_of_read {s : Sheet} {asked read last : MemoryFiles} (dated : asked.Dated)
    (before : asked.Later read) (after : read.Later last)
    (recorded : ∀ revision, s.loadedRevision? = some revision → asked.revision? s.location = some revision)
    (text : ∀ file content, read.files.get? s.location = some file → parser file.text = .ok content →
      s.content = content) : s.Current parser last := by
  have later := before.trans after
  intro revision loaded
  obtain ⟨old, hold, rfl⟩ := MemoryFiles.revision?_eq_some (recorded revision loaded)
  have past : old.revision ≤ asked.clock := dated s.location old hold
  refine ⟨old.revision, Nat.le_trans past later.clock, (later.stamp _).symm, ?_⟩
  intro file' content hf' hn understood
  rcases after.files s.location file' hf' with ⟨young, -⟩ | ⟨file, hf, -, same⟩
  · -- the revision is not younger than the moment at which it was asked for
    have := before.clock
    omega
  · exact text file content hf (same ▸ understood)

theorem Sheet.eq_of_loadedRevision?_mapRefresh (revision : Option Revision) {s : Sheet}
    {f : RefreshState → RefreshState} (sets : ∀ state, (f state).lastModified = revision) {loaded : Revision}
    (h : (s.mapRefresh f).loadedRevision? = some loaded) : revision = some loaded := by
  unfold loadedRevision? mapRefresh at h
  cases hs : s.refresh with
  | none => simp [hs] at h
  | some state => simpa [hs, sets] using h

/-- Whatever a fetch answers, the sheet stays current. -/
theorem Sheet.Current.afterFetch {s : Sheet} {asked read last : MemoryFiles}
    {fetched : Except StyleError Content} (h : s.Current parser last) (dated : asked.Dated)
    (before : asked.Later read) (after : read.Later last) (text : ReadFrom parser s.location read fetched)
    (now : Nat) : (s.afterFetch (asked.revision? s.location) now fetched).Current parser last := by
  unfold Sheet.afterFetch
  split
  · rename_i content
    refine current_of_read dated before after ?_ ?_
    · exact fun _ loaded => eq_of_loadedRevision?_mapRefresh (asked.revision? s.location) (fun _ => rfl) loaded
    · -- the new content is what the text that was read means
      intro file content' hf understood
      obtain ⟨file', hf', read⟩ := text.understood content rfl
      cases hf.symm.trans hf'
      exact Except.ok.inj (read.symm.trans understood)
  · rename_i l cause
    refine current_of_read dated before after ?_ ?_
    · exact fun _ loaded => eq_of_loadedRevision?_mapRefresh (asked.revision? s.location) (fun _ => rfl) loaded
    · -- the text that was read could not be understood
      intro file content' hf understood
      obtain ⟨file', hf', read⟩ := text.garbled l cause rfl
      cases hf.symm.trans hf'
      cases read.symm.trans understood
  · -- a text that was not read leaves the content, and the revision that goes with it
    exact h.of_version (version_mapRefresh s fun _ => rfl)

namespace Repository

/-! ## One fetch -/

/-- A fetch reads at some moment, and what it answers comes from the text of that moment. -/
theorem fetch_spec (r : Repository SharedFiles) (location : Location) :
    ∃ m, r.source.files.Later m ∧ m.Later (r.fetch location).2.source.files ∧
      (r.source.Quiet 2 → m = r.source.files) ∧ ReadFrom r.parser location m (r.fetch location).1 := by
  have asked := r.source.later_settle
  have again := r.source.settle.later_settle
  unfold fetch
  split
  · rename_i source heq
    have moved : source = r.source.settle := (congrArg Prod.snd heq).symm
    subst moved
    refine ⟨r.source.settle.files, asked, .refl _, fun quiet => quiet.settle.1, ?_, ?_⟩
    · exact fun _ h => absurd h (by simp)
    · exact fun _ _ h => absurd h (by simp)
  rename_i source heq
  have moved : source = r.source.settle := (congrArg Prod.snd heq).symm
  subst moved
  -- the text is read after two batches of writes, and the attempt is counted afterwards
  have counted := r.source.settle.settle.files.later_countRead location
  have quiet : r.source.Quiet 2 → r.source.settle.settle.files = r.source.files :=
    fun quiet => quiet.settle.2.settle.1.trans quiet.settle.1
  split
  · rename_i cause source heq
    have moved := (congrArg Prod.snd heq).symm
    subst moved
    refine ⟨r.source.settle.settle.files, asked.trans again, counted, quiet, ?_, ?_⟩
    · exact fun _ h => absurd h (by simp)
    · exact fun _ _ h => absurd h (by simp)
  · rename_i text source heq
    have moved := (congrArg Prod.snd heq).symm
    subst moved
    obtain ⟨file, hf, rfl⟩ := MemoryFiles.contents_eq_ok (congrArg Prod.fst heq)
    refine ⟨r.source.settle.settle.files, asked.trans again, counted, quiet, ?_, ?_⟩
    · intro content h
      refine ⟨file, hf, ?_⟩
      cases hp : r.parser file.text <;> simp_all
    · intro l cause h
      refine ⟨file, hf, ?_⟩
      cases hp : r.parser file.text <;> simp_all

/-! ## Operations

Every operation goes onward: the files get later, the parser stays, and sheets that are current stay so. -/

/-- The files have a past, and every sheet is current. -/
structure Fresh (r : Repository SharedFiles) : Prop where
  dated : r.source.files.Dated
  current : ∀ id s, r.get? id = some s → s.Current r.parser r.source.files

/-- What every operation does to a repository. -/
structure Onward (r r' : Repository SharedFiles) : Prop where
  parser : r'.parser = r.parser
  later : r.source.files.Later r'.source.files
  fresh : r.Fresh → r'.Fresh

namespace Onward

variable {r r' r'' : Repository SharedFiles}

theorem refl (r : Repository SharedFiles) : r.Onward r :=
  ⟨rfl, .refl _, id⟩

theorem trans (first : r.Onward r') (second : r'.Onward r'') : r.Onward r'' :=
  ⟨second.parser.trans first.parser, first.later.trans second.later, second.fresh ∘ first.fresh⟩

/-- It is enough to look at the sheets that are not as they were. -/
theorem of_sheets (parser : r'.parser = r.parser) (later : r.source.files.Later r'.source.files)
    (sheets : ∀ id s', r'.get? id = some s' →
      (∃ k s, r.get? k = some s ∧ s'.version = s.version) ∨
        (r.Fresh → s'.Current r.parser r'.source.files)) : r.Onward r' := by
  refine ⟨parser, later, fun fresh => ⟨later.dated fresh.dated, fun id s' hs' => ?_⟩⟩
  rw [parser]
  rcases sheets id s' hs' with ⟨k, s, hs, same⟩ | current
  · exact ((fresh.current k s hs).mono later).of_version same
  · exact current fresh

/-- Nothing but the source has changed. -/
theorem of_source (sheets : r'.sheets = r.sheets) (parser : r'.parser = r.parser)
    (later : r.source.files.Later r'.source.files) : r.Onward r' := by
  refine of_sheets parser later fun id s hs => .inl ⟨id, s, ?_, rfl⟩
  rwa [get?, sheets] at hs

theorem of_same (sheets : r'.sheets = r.sheets) (parser : r'.parser = r.parser)
    (source : r'.source = r.source) : r.Onward r' :=
  of_source sheets parser (source ▸ .refl _)

/-- A row of steps that go onward goes onward, by induction on the row. -/
theorem foldl {α : Type} {f : Repository SharedFiles → α → Repository SharedFiles}
    (step : ∀ (r : Repository SharedFiles) a, r.Onward (f r a)) (row : List α) (r : Repository SharedFiles) :
    r.Onward (row.foldl f r) := by
  induction row generalizing r with
  | nil => exact refl r
  | cons a rest ih => exact (step r a).trans (ih _)

end Onward

theorem onward_emit (r : Repository SharedFiles) (e : Event) : r.Onward (r.emit e) :=
  .of_same rfl rfl rfl

theorem onward_update (r : Repository SharedFiles) (id : SheetId) {f : Sheet → Sheet}
    (same : ∀ s, (f s).version = s.version) : r.Onward (r.update id f) := by
  refine .of_sheets (parser_update ..) (source_update r id f ▸ .refl _) fun k s' hs' => .inl ?_
  rw [get?_update] at hs'
  split at hs'
  · obtain ⟨s, hs, rfl⟩ := Option.map_eq_some_iff.mp hs'
    exact ⟨k, s, hs, same s⟩
  · exact ⟨k, s', hs', rfl⟩

theorem onward_insert (r : Repository SharedFiles) {sheet : Sheet}
    (current : r.Fresh → sheet.Current r.parser r.source.files) : r.Onward (r.insert sheet).2 := by
  refine .of_sheets rfl (.refl _) fun k s' hs' => ?_
  rw [get?_insert] at hs'
  split at hs'
  · cases hs'
    exact .inr current
  · exact .inl ⟨k, s', hs', rfl⟩

theorem onward_fetch (r : Repository SharedFiles) (location : Location) :
    r.Onward (r.fetch location).2 := by
  obtain ⟨m, before, after, -, -⟩ := fetch_spec r location
  exact .of_source (sheets_fetch ..) (parser_fetch ..) (before.trans after)

/-- The sheet that is refreshed takes what was read for it, the others stay. -/
theorem onward_afterFetch {r r' : Repository SharedFiles} {id : SheetId} {sheet : Sheet}
    {asked read : MemoryFiles} {fetched : Except StyleError Content} (loaded : r.get? id = some sheet)
    (sheets : r'.sheets = r.sheets) (parser : r'.parser = r.parser) (start : r.source.files.Later asked)
    (before : asked.Later read) (after : read.Later r'.source.files)
    (text : ReadFrom r.parser sheet.location read fetched) (now : Nat) :
    r.Onward (r'.update id fun s => s.afterFetch (asked.revision? sheet.location) now fetched) := by
  have later := start.trans (before.trans after)
  refine .of_sheets ((parser_update ..).trans parser) (by rwa [source_update]) fun k s' hs' => ?_
  have same : r'.get? k = r.get? k := congrArg (Table.get? · k) sheets
  rw [get?_update, same] at hs'
  split at hs'
  · rename_i hk
    subst hk
    rw [loaded] at hs'
    cases hs'
    refine .inr fun fresh => ?_
    rw [source_update]
    have current := (fresh.current id sheet loaded).mono later
    exact current.afterFetch (start.dated fresh.dated) before after text now
  · exact .inl ⟨k, s', hs', rfl⟩

theorem onward_refresh (r : Repository SharedFiles) (id : SheetId) (force : Bool) :
    r.Onward (r.refresh id force).2 := by
  cases loaded : r.get? id with
  | none =>
    unfold refresh
    rw [loaded]
    exact .refl r
  | some s =>
    have asked := r.source.later_settle
    rcases refresh_cases loaded force with ⟨-, -, done⟩ | ⟨-, outcome, -, done⟩ <;> rw [done]
    · have dated : r.Onward (r.dated s.location) := .of_source rfl rfl asked
      exact dated.trans (onward_emit ..)
    · let dated := r.dated s.location
      obtain ⟨m, before, after, -, text⟩ := fetch_spec dated s.location
      have sheets : (dated.fetch s.location).2.sheets = r.sheets := sheets_fetch dated _
      have parser : (dated.fetch s.location).2.parser = r.parser := parser_fetch dated _
      have reread : r.Onward (r.reread id s) :=
        onward_afterFetch loaded sheets parser asked before after text (dated.fetch s.location).2.now
      exact reread.trans (onward_emit ..)

theorem onward_erase (r : Repository SharedFiles) (id : SheetId) :
    r.Onward { r with sheets := r.sheets.erase id } := by
  refine .of_sheets rfl (.refl _) fun k s hs => .inl ⟨k, s, ?_, rfl⟩
  have erased : (r.sheets.erase id).get? k = some s := hs
  rw [Table.get?_erase] at erased
  split at erased
  · cases erased
  · exact erased

theorem onward_clear (r : Repository SharedFiles) : r.Onward { r with sheets := .empty } := by
  refine .of_sheets rfl (.refl _) fun k s hs => ?_
  cases hs

/-- Every small change goes onward, if no guest comes. -/
theorem Change.onward {Guest : Sheet → Prop} {r r' : Repository SharedFiles} (change : Change Guest r r')
    (alone : ∀ sheet, ¬ Guest sheet) : r.Onward r' := by
  cases change with
  | aside h => exact .of_same h.sheets h.parser h.source
  | resolve path => exact .of_source rfl rfl r.source.later_settle
  | ask location => exact .of_source rfl rfl r.source.later_settle
  | fetch location => exact onward_fetch r location
  | refresh id force => exact onward_refresh r id force
  | @insert sheet welcome =>
    -- nothing is recorded for a sheet that is no guest
    have unknown : sheet.loadedRevision? = none := welcome.resolve_right (alone sheet)
    exact onward_insert r fun _ => Sheet.current_of_unknown unknown
  | adjust id version => exact onward_update r id version
  | erase id => exact onward_erase r id
  | clear => exact onward_clear r

theorem Changes.onward {Guest : Sheet → Prop} {r r' : Repository SharedFiles} (row : Changes Guest r r')
    (alone : ∀ sheet, ¬ Guest sheet) : r.Onward r' :=
  row.relates .refl .trans fun change => change.onward alone

theorem onward_handle (r : Repository SharedFiles) (request : Request) : r.Onward (r.handle request) := by
  have row : Changes (fun _ => False) r (r.handle request) := changes_handle r request
  exact row.onward fun _ => id

theorem onward_processNext (r : Repository SharedFiles) : r.Onward r.processNext.2 := by
  unfold processNext
  cases r.queue with
  | nil => exact .refl r
  | cons request rest =>
    have taken : r.Onward { r with queue := rest } := .of_same rfl rfl rfl
    exact taken.trans (onward_handle _ request)

theorem onward_processPending (r : Repository SharedFiles) : r.Onward r.processPending.2 := by
  have taken : r.Onward { r with queue := [] } := .of_same rfl rfl rfl
  exact taken.trans (.foldl onward_handle ..)

theorem onward_awaitRequest (r : Repository SharedFiles) (limit : Nat) :
    r.Onward (r.awaitRequest limit).2 := by
  have row : Changes (fun _ => False) r (r.waiting limit) := changes_waiting r limit
  rw [awaitRequest_eq]
  exact (row.onward fun _ => id).trans (onward_processNext _)

theorem onward_register (r : Repository SharedFiles) {sheet : Sheet}
    (current : r.Fresh → sheet.Current r.parser r.source.files) : r.Onward (r.register sheet).2 := by
  unfold register
  split
  · exact .refl r
  · exact onward_insert r current

/-- **Every operation goes onward**, if what is registered is current and the source changes by writes. -/
theorem onward_perform (r : Repository SharedFiles) (op : Operation SharedFiles)
    (registered : ∀ sheet, op = .register sheet → r.Fresh → sheet.Current r.parser r.source.files)
    (written : ∀ change, op = .changeSource change → ∃ w, change = SharedFiles.outside w) :
    r.Onward (r.perform op) := by
  by_cases guest : ∃ sheet, op = .register sheet
  · obtain ⟨sheet, rfl⟩ := guest
    exact onward_register r (registered sheet rfl)
  have alone : ∀ sheet, op ≠ .register sheet := fun sheet same => guest ⟨sheet, same⟩
  cases op with
  | processPending => exact onward_processPending r
  | awaitRequest limit => exact onward_awaitRequest r limit
  | changeSource change =>
    obtain ⟨w, rfl⟩ := written change rfl
    exact .of_source rfl rfl (w.later_apply _)
  | _ => exact Changes.onward (changes_perform r trivial) alone

/-! ## A reload without writes -/

/-- A refresh that is not forced ends with the content of the source, unless it fails. -/
theorem Fresh.refresh_quiet {r r' : Repository SharedFiles} (h : r.Fresh) {id : SheetId} {s : Sheet}
    (loaded : r.get? id = some s) (quiet : r.source.Quiet 3) {outcome : Outcome}
    (refreshed : r.refresh id false = (outcome, r'))
    (done : outcome = .refreshed ∨ outcome = .unchanged) {file : MemoryFile} {content : Content}
    (there : r.source.files.files.get? s.location = some file)
    (understood : r.parser file.text = .ok content) :
    ∃ s', r'.get? id = some s' ∧ s'.content = content := by
  obtain ⟨still, quiet⟩ := quiet.settle
  rcases refresh_cases loaded false with ⟨-, ⟨known, same⟩, ends⟩ | ⟨-, _, ended, ends⟩ <;>
    cases refreshed.symm.trans ends
  · -- the source bears the recorded revision, so the content that is loaded came from its text
    obtain ⟨revision, hr⟩ := Option.isSome_iff_exists.mp known
    obtain ⟨n, -, rfl, text⟩ := h.current id s loaded revision (same.symm.trans hr)
    obtain ⟨file', hf', stamp⟩ := MemoryFiles.revision?_eq_some hr
    rw [still] at hf' stamp
    cases there.symm.trans hf'
    exact ⟨s, loaded, text file content there (MemoryFiles.stamp_inj.mp stamp).symm understood⟩
  · -- what was read is what is there
    let asked := r.dated s.location
    obtain ⟨m, -, -, unmoved, text⟩ := fetch_spec asked s.location
    have there' : m.files.get? s.location = some file := by
      rw [unmoved quiet]
      exact still ▸ there
    have good : outcome = .refreshed :=
      done.resolve_right fun same => Outcome.ofFetch_ne_unchanged _ (ended.symm.trans same)
    obtain ⟨new, fetched⟩ := Outcome.ofFetch_eq_refreshed.mp (ended.symm.trans good)
    obtain ⟨file', hf', read⟩ := text.understood new fetched
    cases there'.symm.trans hf'
    refine ⟨_, (get?_reread loaded id).trans (if_pos rfl), ?_⟩
    rw [fetched, Sheet.content_afterFetch_ok]
    exact Except.ok.inj (read.symm.trans understood)

theorem Fresh.reload_quiet {r : Repository SharedFiles} (h : r.Fresh) {id : SheetId} {s : Sheet}
    (loaded : r.get? id = some s) (refreshable : s.isRefreshable) (quiet : r.source.Quiet 3) :
    ∃ outcome r', r.reload id false = (.ok outcome, r') ∧
      (outcome = .refreshed ∨ outcome = .unchanged → ∀ file content,
        r.source.files.files.get? s.location = some file → r.parser file.text = .ok content →
          ∃ s', r'.get? id = some s' ∧ s'.content = content) := by
  have told : (r.emit (.willRefresh (some id))).Fresh := (onward_emit ..).fresh h
  refine ⟨_, _, reload_of_refreshable loaded refreshable false, ?_⟩
  intro done file content there understood
  exact told.refresh_quiet loaded quiet rfl done there understood

end Repository

/-! ## Runs -/

namespace Owner

/-- The owner registers sheets that were unloaded, or for which no revision is recorded, and others change the
source by writes. -/
def Lawful (o : Owner SharedFiles) : Operation SharedFiles → Prop
  | .register sheet => sheet ∈ o.unloaded ∨ sheet.loadedRevision? = none
  | .changeSource change => ∃ w, change = SharedFiles.outside w
  | _ => True

/-- The sheets are current, those that were unloaded too. -/
structure Fresh (parser : String → Except ParseError Content) (o : Owner SharedFiles) : Prop where
  fixed : o.repository.parser = parser
  repository : o.repository.Fresh
  unloaded : ∀ s ∈ o.unloaded, s.Current parser o.repository.source.files

theorem Fresh.perform {o : Owner SharedFiles} (h : o.Fresh parser) {op : Operation SharedFiles}
    (lawful : o.Lawful op) : (o.perform op).Fresh parser := by
  have on : o.repository.Onward (o.repository.perform op) := by
    refine o.repository.onward_perform op ?_ ?_
    · rintro sheet rfl -
      rw [h.fixed]
      exact lawful.elim (h.unloaded sheet) Sheet.current_of_unknown
    · rintro change rfl
      exact lawful
  refine ⟨on.parser.trans h.fixed, on.fresh h.repository, fun s hs => ?_⟩
  have current : s.Current parser o.repository.source.files := by
    rcases List.mem_append.mp hs with hs | hs
    · exact h.unloaded s hs
    · -- what an unload returns was in the repository, and has lost its watch only
      obtain ⟨id, t, -, ht, rfl⟩ := Repository.mem_returned hs
      rw [← h.fixed]
      exact (h.repository.current id t ht).of_version (t.version_mapRefresh fun _ => rfl)
  exact current.mono on.later

/-- Wherever a run leads, with whatever writes fall between its operations and within them, a reload that is
not forced, and during which no write falls, does not leave stale content behind: if it says that the sheet
was refreshed or is unchanged, then the sheet has the content of the text that its source has. -/
theorem Reaches.reload_never_stale {bundle : Table String Location} {etags : Bool}
    {coming : List (List FileWrite)} {board : Option WatchBoard} {config : RefreshConfig} {hasClock : Bool}
    {o : Owner SharedFiles}
    (run : Reaches Lawful
      (new ⟨{ MemoryFiles.empty with bundle := bundle, etags := etags }, coming⟩ parser board config hasClock) o)
    {id : SheetId} {s : Sheet} (loaded : o.repository.get? id = some s) (refreshable : s.isRefreshable)
    (quiet : o.repository.source.Quiet 3) :
    ∃ outcome r', o.repository.reload id false = (.ok outcome, r') ∧
      (outcome = .refreshed ∨ outcome = .unchanged → ∀ file content,
        o.repository.source.files.files.get? s.location = some file → parser file.text = .ok content →
          ∃ s', r'.get? id = some s' ∧ s'.content = content) := by
  have fresh : o.Fresh parser := by
    refine run.invariant (I := Fresh parser) ?_ fun o op lawful h => h.perform lawful
    refine ⟨rfl, ⟨fun _ _ h => ?_, fun _ _ h => ?_⟩, fun _ h => ?_⟩
    · cases h
    · cases h
    · cases h
  obtain ⟨outcome, r', reloaded, content⟩ := fresh.repository.reload_quiet loaded refreshable quiet
  rw [fresh.fixed] at content
  exact ⟨outcome, r', reloaded, content⟩

/-- The location of the sheet in `raced`. -/
def notes : Location := ⟨"mem://notes.css"⟩

/-- Content that tells from which text it came. -/
def quoting (text : String) : Content :=
  Content.empty.define "text" text

/-- An owner that loads a sheet while someone else writes: between the question for the revision and the
reading, the text changes. Then the owner unloads the sheet and registers it again. -/
def raced : Owner SharedFiles :=
  let coming := [[], [], [], [.write notes "new"]]
  let start : Owner SharedFiles := .new ⟨.empty, coming⟩ (fun text => .ok (quoting text)) none .standard true
  let loaded := (start.perform (.changeSource (.outside (.write notes "old")))).perform
    (.loadRefreshable notes none none)
  let unloaded := loaded.perform (.unload ⟨0⟩)
  unloaded.perform (.register (unloaded.unloaded.headD (.of notes .empty)))

/-- The sheet was recorded with the older revision, so it is read again. -/
theorem reload_never_stale_raced :
    ∃ r' s, raced.repository.reload ⟨1⟩ false = (.ok .refreshed, r') ∧ r'.get? ⟨1⟩ = some s ∧
      s.content = quoting "new" := by
  have run : Reaches Lawful (.new _ _ _ _ _) raced :=
    .step (.step (.step (.step .refl ⟨_, rfl⟩) trivial) trivial) (.inl (List.mem_singleton_self _))
  have loaded : ∃ s, raced.repository.get? ⟨1⟩ = some s ∧ s.isRefreshable ∧ s.location = notes :=
    ⟨_, rfl, rfl, rfl⟩
  obtain ⟨s, loaded, refreshable, place⟩ := loaded
  have spent : raced.repository.source.coming = [] := rfl
  have quiet : raced.repository.source.Quiet 3 := fun writes h => absurd h (by simp [spent])
  obtain ⟨outcome, r', reloaded, content⟩ := run.reload_never_stale loaded refreshable quiet
  have done : (raced.repository.reload ⟨1⟩ false).1 = .ok .refreshed := rfl
  rw [reloaded] at done
  cases done
  rw [place] at content
  obtain ⟨s', loaded', same⟩ := content (.inl rfl) _ (quoting "new") rfl rfl
  exact ⟨r', s', reloaded, loaded', same⟩

end Owner

end Stylebook
