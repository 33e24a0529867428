import Mathlib.Logic.Relation
import Stylebook.Proofs.Repository.Refreshes
import Stylebook.Proofs.Repository.Run

/-!
# What operations are made of

However many operations there are, they do few things to what a repository knows: the source is asked, a sheet is
refreshed, a sheet comes or goes, the flag or the watch of a sheet is set, and the rest (receivers, board, timer,
clock, order) changes without touching sheets, source or parser. `Change` lists these, and `changes_perform` says
that every operation is a row of them.

So a relation between a repository and a later one that is reflexive and transitive is shown of nine changes, and
not of each operation anew. Requests that are queued stay queued throughout, in front of any that come: only
handling takes them, and what handling a request does is again a row of changes.
-/

set_option autoImplicit false

namespace Stylebook

/-- All of a sheet that is compared with its source. -/
def Sheet.version (s : Sheet) : Location × Content × Option Revision :=
  (s.location, s.content, s.loadedRevision?)

namespace Sheet

theorem version_mapRefresh (s : Sheet) {f : RefreshState → RefreshState}
    (same : ∀ state, (f state).lastModified = state.lastModified) : (s.mapRefresh f).version = s.version := by
  unfold version loadedRevision? mapRefresh
  cases s.refresh with
  | none => rfl
  | some state => simp [same]

theorem isRefreshable_mapRefresh (s : Sheet) (f : RefreshState → RefreshState) :
    (s.mapRefresh f).isRefreshable = s.isRefreshable := by
  unfold isRefreshable mapRefresh
  rw [Option.isSome_map]

theorem isRefreshable_outline (s : Sheet) : s.outline.isRefreshable = s.isRefreshable :=
  isRefreshable_mapRefresh ..

end Sheet

/-- The operation neither takes requests from the queue, nor is it someone else who changes the source. -/
def Operation.Calm {σ : Type} : Operation σ → Prop
  | .processPending | .awaitRequest _ | .changeSource _ => False
  | _ => True

namespace Repository

variable {σ : Type} {r r' r'' : Repository σ} {Guest : Sheet → Prop}

/-- From `r` to `r'`, neither sheets nor source nor parser change, and requests come behind those that are
queued. -/
structure Aside (r r' : Repository σ) : Prop where
  sheets : r'.sheets = r.sheets
  source : r'.source = r.source
  parser : r'.parser = r.parser
  nextIndex : r'.nextIndex = r.nextIndex
  queue : r.queue <+: r'.queue

variable [Source σ]

/-- A small change of a repository. A sheet that comes has no recorded revision, or is a guest. -/
inductive Change (Guest : Sheet → Prop) : Repository σ → Repository σ → Prop where
  | aside {r r' : Repository σ} (h : r.Aside r') : Change Guest r r'
  | resolve (r : Repository σ) (path : String) :
      Change Guest r { r with source := (Source.resolveBundle r.source path).2 }
  | ask (r : Repository σ) (location : Location) : Change Guest r (r.asked location)
  | fetch (r : Repository σ) (location : Location) : Change Guest r (r.fetch location).2
  | refresh (r : Repository σ) (id : SheetId) (force : Bool) : Change Guest r (r.refresh id force).2
  | insert (r : Repository σ) {sheet : Sheet} (welcome : sheet.loadedRevision? = none ∨ Guest sheet) :
      Change Guest r (r.insert sheet).2
  | adjust (r : Repository σ) (id : SheetId) {f : Sheet → Sheet} (version : ∀ s, (f s).version = s.version)
      (refreshable : ∀ s, (f s).isRefreshable = s.isRefreshable) : Change Guest r (r.update id f)
  | erase (r : Repository σ) (id : SheetId) : Change Guest r { r with sheets := r.sheets.erase id }
  | clear (r : Repository σ) : Change Guest r { r with sheets := .empty }

/-- A row of changes. -/
def Changes (Guest : Sheet → Prop) : Repository σ → Repository σ → Prop :=
  Relation.ReflTransGen (Change Guest)

namespace Changes

theorem refl (r : Repository σ) : Changes Guest r r :=
  Relation.ReflTransGen.refl

theorem trans (first : Changes Guest r r') (second : Changes Guest r' r'') : Changes Guest r r'' :=
  Relation.ReflTransGen.trans first second

theorem one (change : Change Guest r r') : Changes Guest r r' :=
  .single change

theorem aside (sheets : r'.sheets = r.sheets) (source : r'.source = r.source) (parser : r'.parser = r.parser)
    (nextIndex : r'.nextIndex = r.nextIndex) (queue : r.queue <+: r'.queue) : Changes Guest r r' :=
  one (.aside ⟨sheets, source, parser, nextIndex, queue⟩)

/-- A row of steps that are rows of changes, by induction on the row. -/
theorem foldl {α : Type} {f : Repository σ → α → Repository σ} (step : ∀ r a, Changes Guest r (f r a))
    (row : List α) (r : Repository σ) : Changes Guest r (row.foldl f r) := by
  induction row generalizing r with
  | nil => exact refl r
  | cons a rest ih => exact (step r a).trans (ih _)

/-- What every small change respects, a row of changes respects. -/
theorem relates {R : Repository σ → Repository σ → Prop} (reflexive : ∀ r, R r r)
    (transitive : ∀ {r r' r''}, R r r' → R r' r'' → R r r'') (small : ∀ {r r'}, Change Guest r r' → R r r')
    (row : Changes Guest r r') : R r r' := by
  induction row with
  | refl => exact reflexive r
  | tail _ last ih => exact transitive ih (small last)

end Changes

/-- Requests that are queued stay queued. -/
theorem Change.queue (change : Change Guest r r') : r.queue <+: r'.queue := by
  cases change with
  | aside h => exact h.queue
  | fetch location => exact ⟨[], by simp⟩
  | refresh id force => exact ⟨[], by simp⟩
  | adjust id => exact ⟨[], by simp⟩
  | _ => exact List.prefix_refl _

theorem Changes.queue (row : Changes Guest r r') : r.queue <+: r'.queue := by
  refine row.relates (R := fun r r' => r.queue <+: r'.queue) (fun _ => List.prefix_refl _) ?_ Change.queue
  exact fun first second => first.trans second

/-! ## Refreshes and requests -/

theorem changes_emit (r : Repository σ) (e : Event) : Changes Guest r (r.emit e) :=
  .aside rfl rfl rfl rfl (List.prefix_refl _)

theorem changes_reload (r : Repository σ) (id : SheetId) (force : Bool) :
    Changes Guest r (r.reload id force).2 := by
  rcases r.reload_cases id force with ⟨s, -, -, done⟩ | ⟨-, e, done⟩ <;> rw [done]
  · exact (changes_emit r _).trans (.one (.refresh _ id force))
  · exact .refl r

theorem changes_reloadAll (r : Repository σ) (force : Bool) : Changes Guest r (r.reloadAll force) :=
  (changes_emit r _).trans (.foldl (fun r id => .one (.refresh r id force)) ..)

theorem changes_handle (r : Repository σ) (request : Request) : Changes Guest r (r.handle request) := by
  cases request with
  | poll => exact changes_reloadAll r false
  | modified id => exact changes_reload r id true

/-! ## Sheets that come -/

theorem changes_startMonitoring (r : Repository σ) (id : SheetId) :
    Changes Guest r (r.startMonitoring id) := by
  have adjusts : ∀ (r : Repository σ) (mode : Monitoring) (watch : Option Nat), Changes Guest r
      (r.update id fun s => s.mapRefresh fun state => { state with monitoring := mode, watch := watch }) :=
    fun r _ _ => .one (.adjust r id (fun s => s.version_mapRefresh fun _ => rfl)
      fun s => s.isRefreshable_mapRefresh _)
  unfold startMonitoring
  split
  · exact .refl r
  · split
    · rename_i watch board _
      have watched : Changes Guest r { r with board := some board } :=
        .aside rfl rfl rfl rfl (List.prefix_refl _)
      exact watched.trans (adjusts _ ..)
    · exact (adjusts r ..).trans (.aside rfl rfl rfl rfl (List.prefix_refl _))

theorem changes_load (r : Repository σ) (location : Location) (name group : Option String) :
    Changes Guest r (r.load location name group).2 := by
  have fetched : Changes Guest r (r.fetch location).2 := .one (.fetch r location)
  rcases r.load_cases location name group with ⟨_, -, done⟩ | ⟨-, e, -, done⟩ | ⟨-, content, -, done⟩ <;>
    rw [done]
  · exact .refl r
  · exact fetched
  · exact fetched.trans (.one (.insert _ (.inl rfl)))

theorem changes_loadFromBundle (r : Repository σ) (path : String) (name group : Option String) :
    Changes Guest r (r.loadFromBundle path name group).2 := by
  have resolved : Changes Guest r { r with source := (Source.resolveBundle r.source path).2 } :=
    .one (.resolve r path)
  unfold loadFromBundle
  split <;> rename_i heq <;> rw [heq] at resolved
  · exact resolved
  · exact resolved.trans (changes_load ..)

theorem changes_loadRefreshable (r : Repository σ) (location : Location) (name group : Option String) :
    Changes Guest r (r.loadRefreshable location name group).2 := by
  have asked : Changes Guest r (r.asked location) := .one (.ask r location)
  rcases r.loadRefreshable_cases location name group with
    ⟨_, -, done⟩ | ⟨-, -, done⟩ | ⟨-, -, sheet, new, done⟩ <;> rw [done]
  · exact .refl r
  · exact asked
  · have unknown : sheet.loadedRevision? = none := by rw [new]; rfl
    have inserted := asked.trans (.one (.insert _ (.inl unknown)))
    have reloaded := inserted.trans (changes_reload _ ⟨r.nextIndex⟩ true)
    exact reloaded.trans (changes_startMonitoring ..)

theorem changes_register (r : Repository σ) {sheet : Sheet} (guest : Guest sheet) :
    Changes Guest r (r.register sheet).2 := by
  unfold register
  split
  · exact .refl r
  · exact .one (.insert r (.inr guest))

theorem changes_setActive (r : Repository σ) (id : SheetId) (active : Bool) :
    Changes Guest r (r.setActive id active).2 := by
  unfold setActive
  split
  · exact .refl r
  · split
    · exact .refl r
    · have adjusted : Changes Guest r (r.update id fun s => { s with active := active }) :=
        .one (.adjust r id (fun _ => rfl) fun _ => rfl)
      exact adjusted.trans (changes_emit ..)

/-! ## Sheets that go -/

theorem changes_release (r : Repository σ) (sheet : Sheet) : Changes Guest r (r.release sheet) := by
  unfold release
  split
  · exact .aside rfl rfl rfl rfl (List.prefix_refl _)
  · exact .refl r

theorem changes_discard (r : Repository σ) (id : SheetId) : Changes Guest r (r.discard id) := by
  unfold discard
  split
  · exact .refl r
  · exact .trans (.one (.erase r id)) (changes_release ..)

theorem changes_disableIdleTimer (r : Repository σ) : Changes Guest r r.disableIdleTimer := by
  obtain ⟨_, _, h⟩ := r.disableIdleTimer_eq
  rw [h]
  exact .aside rfl rfl rfl rfl (List.prefix_refl _)

/-- The order changes, the receivers are told, and perhaps the polls end. -/
theorem changes_reorder (r : Repository σ) (order : List SheetId) (e : Event) :
    Changes Guest r ({ r with order := order }.emit e).disableIdleTimer := by
  have ordered : Changes Guest r { r with order := order } := .aside rfl rfl rfl rfl (List.prefix_refl _)
  exact (ordered.trans (changes_emit ..)).trans (changes_disableIdleTimer _)

theorem changes_unload (r : Repository σ) (id : SheetId) : Changes Guest r (r.unload id).2 := by
  unfold unload
  split
  · exact .refl r
  · exact (changes_discard r id).trans (changes_reorder ..)

theorem changes_unloadAll (r : Repository σ) : Changes Guest r r.unloadAll := by
  have discarded : Changes Guest r (r.order.foldl discard r) := .foldl changes_discard ..
  have released : Changes Guest (r.order.foldl discard r) _ :=
    .foldl (fun r (e : SheetId × Sheet) => changes_release r e.2) (r.order.foldl discard r).sheets.entries _
  have cleared := (discarded.trans released).trans (.one (.clear _))
  exact cleared.trans (changes_reorder ..)

/-! ## Operations -/

/-- Time that passes only adds to what is queued. -/
theorem changes_advance (r : Repository σ) (milliseconds : Nat) : Changes Guest r (r.advance milliseconds) := by
  unfold advance
  dsimp only
  split
  · exact .aside rfl rfl rfl rfl (List.prefix_refl _)
  · exact .aside rfl rfl rfl rfl (List.prefix_append _ _)

theorem changes_waiting (r : Repository σ) (limit : Nat) : Changes Guest r (r.waiting limit) := by
  unfold waiting
  split
  · exact changes_advance ..
  · exact .refl r

/-- **Every calm operation is a row of small changes.** A sheet that is registered is the only guest. -/
theorem changes_perform (r : Repository σ) {op : Operation σ} (calm : op.Calm) :
    Changes (fun sheet => op = .register sheet) r (r.perform op) := by
  cases op with
  | load location name group => exact changes_load r location name group
  | loadFromBundle path name group => exact changes_loadFromBundle r path name group
  | loadRefreshable location name group => exact changes_loadRefreshable r location name group
  | register sheet => exact changes_register r rfl
  | setActive id active => exact changes_setActive r id active
  | reload id force => exact changes_reload r id force
  | reloadAll force => exact changes_reloadAll r force
  | processPending | awaitRequest _ | changeSource _ => exact calm.elim
  | unload id => exact changes_unload r id
  | unloadAll => exact changes_unloadAll r
  | setInterval interval =>
    obtain ⟨_, _, h⟩ := r.setInterval_eq interval
    simp only [perform, h]
    exact .aside rfl rfl rfl rfl (List.prefix_refl _)
  | advance milliseconds => exact changes_advance r milliseconds
  | report location => exact .aside rfl rfl rfl rfl (List.prefix_append _ _)
  | enableTimer | disableTimer | subscribe | unsubscribe _ | openChannel | drain _ | hangUp _ =>
    exact .aside rfl rfl rfl rfl (List.prefix_refl _)

end Repository

end Stylebook
