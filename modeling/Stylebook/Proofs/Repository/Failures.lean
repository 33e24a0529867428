import Stylebook.Proofs.Repository.Refreshes
import Stylebook.Proofs.Repository.Index

/-!
# Operations that fail

Six operations can fail, and each makes all its checks before it changes anything. `Fails` lists the checks, each
with the error that it ends in, and says nothing of how the operations are written: a location withholds its
content for the first of three reasons, a name of the bundle may have no location, an identifier may belong to no
sheet, and a sheet may not be one that is refreshed.

`failure_unaltered` says that this list is complete and exact, and that a repository whose operation failed is
the one that it was. Only the source may notice: it was asked, and perhaps its text was parsed.
-/

set_option autoImplicit false

namespace Stylebook

/-- The error that a result is, if it is one. -/
def StyleError.of? {β : Type} : Except StyleError β → Option StyleError
  | .error e => some e
  | .ok _ => none

theorem StyleError.of?_eq_some {β : Type} {result : Except StyleError β} {e : StyleError} :
    of? result = some e ↔ result = .error e := by
  cases result <;> simp [of?]

namespace Repository

variable {σ : Type} {r r' : Repository σ} {e : StyleError}

/-! ## The checks -/

section Spec

variable [Source σ]

/-- Why a location has no content to give: nothing is found there, or it cannot be read, or its text makes no
sense. The first of these is the reason. -/
inductive Withholds (source : σ) (parser : String → Except ParseError Content) (location : Location) :
    StyleError → Prop where
  | absent (absent : (Source.isPresent source location).1 = false) :
      Withholds source parser location (.notFound location.text)
  | unreadable {cause : ReadError} (present : (Source.isPresent source location).1 = true)
      (unread : (Source.read (Source.isPresent source location).2 location).1 = .error cause) :
      Withholds source parser location (.readFailed location cause)
  | senseless {text : String} {cause : ParseError} (given : Gives source location text)
      (misread : parser text = .error cause) : Withholds source parser location (.parseFailed location cause)

/-- What makes an operation fail, and with which error. -/
inductive Fails (r : Repository σ) : Operation σ → StyleError → Prop where
  | load {location : Location} (name group : Option String) {e : StyleError}
      (vacant : r.idAt? location = none) (withheld : Withholds r.source r.parser location e) :
      Fails r (.load location name group) e
  | unresolved {path : String} (name group : Option String)
      (unknown : (Source.resolveBundle r.source path).1 = none) :
      Fails r (.loadFromBundle path name group) (.notFound path)
  | resolved {path : String} {location : Location} (name group : Option String) {e : StyleError}
      (known : (Source.resolveBundle r.source path).1 = some location) (vacant : r.idAt? location = none)
      (withheld : Withholds (Source.resolveBundle r.source path).2 r.parser location e) :
      Fails r (.loadFromBundle path name group) e
  | loadRefreshable {location : Location} (name group : Option String) (vacant : r.idAt? location = none)
      (absent : (Source.isPresent r.source location).1 = false) :
      Fails r (.loadRefreshable location name group) (.notFound location.text)
  | setActive {id : SheetId} (active : Bool) (unloaded : r.get? id = none) :
      Fails r (.setActive id active) .unknownSheet
  | reloadUnloaded {id : SheetId} (force : Bool) (unloaded : r.get? id = none) :
      Fails r (.reload id force) .unknownSheet
  | reloadFixed {id : SheetId} {s : Sheet} (force : Bool) (loaded : r.get? id = some s)
      (fixed : s.refresh = none) : Fails r (.reload id force) (.notRefreshable s.location)
  | unload {id : SheetId} (unloaded : r.get? id = none) : Fails r (.unload id) .unknownSheet

/-- The error that an operation answers. -/
def failure? (r : Repository σ) : Operation σ → Option StyleError
  | .load location name group => StyleError.of? (r.load location name group).1
  | .loadFromBundle path name group => StyleError.of? (r.loadFromBundle path name group).1
  | .loadRefreshable location name group => StyleError.of? (r.loadRefreshable location name group).1
  | .setActive id active => StyleError.of? (r.setActive id active).1
  | .reload id force => StyleError.of? (r.reload id force).1
  | .unload id => StyleError.of? (r.unload id).1
  | _ => none

end Spec

/-- From `r` to `r'`, the source was asked and texts were parsed, and nothing else happened. -/
def Unaltered (r r' : Repository σ) : Prop :=
  ∃ source parses, r' = { r with source := source, parses := parses }

theorem Unaltered.refl (r : Repository σ) : r.Unaltered r :=
  ⟨r.source, r.parses, rfl⟩

theorem Unaltered.asked {source : σ} (h : ({ r with source := source } : Repository σ).Unaltered r') :
    r.Unaltered r' := by
  obtain ⟨source', parses, rfl⟩ := h
  exact ⟨source', parses, rfl⟩

/-! ## Sheets by identifier -/

theorem setActive_eq_error {id : SheetId} {active : Bool} :
    (r.setActive id active).1 = .error e ↔ r.get? id = none ∧ e = .unknownSheet := by
  unfold setActive
  cases r.get? id with
  | none => simp [eq_comm]
  | some s => by_cases same : s.active = active <;> simp [same]

theorem unaltered_setActive {id : SheetId} {active : Bool} (failed : (r.setActive id active).1 = .error e) :
    r.Unaltered (r.setActive id active).2 := by
  have unloaded := (setActive_eq_error.mp failed).1
  unfold setActive
  rw [unloaded]
  exact .refl r

theorem unload_eq_error {id : SheetId} :
    (r.unload id).1 = .error e ↔ r.get? id = none ∧ e = .unknownSheet := by
  unfold unload
  cases r.get? id <;> simp [eq_comm]

theorem unaltered_unload {id : SheetId} (failed : (r.unload id).1 = .error e) :
    r.Unaltered (r.unload id).2 := by
  have unloaded := (unload_eq_error.mp failed).1
  unfold unload
  rw [unloaded]
  exact .refl r

variable [Source σ]

theorem reload_eq_error {id : SheetId} {force : Bool} :
    (r.reload id force).1 = .error e ↔
      r.get? id = none ∧ e = .unknownSheet ∨
      ∃ s, r.get? id = some s ∧ s.refresh = none ∧ e = .notRefreshable s.location := by
  unfold reload
  cases r.get? id with
  | none => simp [eq_comm]
  | some s => cases refresh : s.refresh <;> simp [Sheet.isRefreshable, refresh, eq_comm]

theorem unaltered_reload {id : SheetId} {force : Bool} (failed : (r.reload id force).1 = .error e) :
    r.Unaltered (r.reload id force).2 := by
  rcases r.reload_cases id force with ⟨s, -, -, done⟩ | ⟨-, e', done⟩ <;> rw [done] at failed ⊢
  · cases failed
  · exact .refl r

/-! ## Fetching -/

theorem unaltered_fetch (r : Repository σ) (location : Location) : r.Unaltered (r.fetch location).2 := by
  unfold fetch
  split
  · exact ⟨_, r.parses, rfl⟩
  split
  · exact ⟨_, r.parses, rfl⟩
  · exact ⟨_, _, rfl⟩

/-- A fetch fails with the reason for which the location withholds its content. -/
theorem fetch_eq_error {location : Location} :
    (r.fetch location).1 = .error e ↔ Withholds r.source r.parser location e := by
  constructor
  · intro failed
    unfold fetch at failed
    split at failed
    · rename_i absent
      cases failed
      exact .absent (congrArg Prod.fst absent)
    rename_i asked present
    have there : (Source.isPresent r.source location).1 = true := congrArg Prod.fst present
    split at failed
    · rename_i unread
      cases failed
      refine .unreadable there ?_
      rw [present, unread]
    · rename_i text read given
      have gives : Gives r.source location text := ⟨there, by rw [present, given]⟩
      cases understood : r.parser text with
      | ok content => simp [understood] at failed
      | error cause =>
        simp only [understood, Except.error.injEq] at failed
        subst failed
        exact .senseless gives understood
  · unfold fetch
    have answered {β : Type} {question : β × σ} {answer : β} (h : question.1 = answer) :
        question = (answer, question.2) := Prod.ext h rfl
    rintro (absent | ⟨present, unread⟩ | ⟨⟨present, given⟩, misread⟩)
    · rw [answered absent]
    · rw [answered present]
      dsimp only
      rw [answered unread]
    · rw [answered present]
      dsimp only
      rw [answered given]
      simp [misread]

/-! ## Loading -/

theorem load_eq_error {location : Location} {name group : Option String} :
    (r.load location name group).1 = .error e ↔
      r.idAt? location = none ∧ Withholds r.source r.parser location e := by
  rw [← fetch_eq_error]
  rcases r.load_cases location name group with
    ⟨id, loaded, done⟩ | ⟨vacant, e', failed, done⟩ | ⟨vacant, content, fetched, done⟩
  · simp [done, loaded]
  · simp [done, vacant, failed]
  · simp [done, vacant, fetched]

theorem unaltered_load {location : Location} {name group : Option String}
    (failed : (r.load location name group).1 = .error e) : r.Unaltered (r.load location name group).2 := by
  rcases r.load_cases location name group with ⟨id, -, done⟩ | ⟨-, e', -, done⟩ | ⟨-, content, -, done⟩ <;>
    rw [done] at failed ⊢
  · exact .refl r
  · exact unaltered_fetch r location
  · cases failed

/-- A load from the bundle fails for want of a location, or as the load from the location fails. -/
theorem loadFromBundle_eq_error {path : String} {name group : Option String} :
    (r.loadFromBundle path name group).1 = .error e ↔
      (Source.resolveBundle r.source path).1 = none ∧ e = .notFound path ∨
      ∃ location, (Source.resolveBundle r.source path).1 = some location ∧ r.idAt? location = none ∧
        Withholds (Source.resolveBundle r.source path).2 r.parser location e := by
  unfold loadFromBundle
  split <;> rename_i resolved <;> rw [resolved]
  · simp [eq_comm]
  · rename_i location source
    refine load_eq_error.trans ?_
    simp [idAt?, entries, get?]

theorem unaltered_loadFromBundle {path : String} {name group : Option String}
    (failed : (r.loadFromBundle path name group).1 = .error e) :
    r.Unaltered (r.loadFromBundle path name group).2 := by
  unfold loadFromBundle at failed ⊢
  split at failed
  · exact ⟨_, r.parses, rfl⟩
  · exact (unaltered_load failed).asked

theorem loadRefreshable_eq_error {location : Location} {name group : Option String} :
    (r.loadRefreshable location name group).1 = .error e ↔
      r.idAt? location = none ∧ (Source.isPresent r.source location).1 = false ∧
        e = .notFound location.text := by
  rcases r.loadRefreshable_cases location name group with
    ⟨id, loaded, done⟩ | ⟨vacant, absent, done⟩ | ⟨vacant, present, sheet, -, done⟩
  · simp [done, loaded]
  · simp [done, vacant, absent, eq_comm]
  · simp [done, present]

theorem unaltered_loadRefreshable {location : Location} {name group : Option String}
    (failed : (r.loadRefreshable location name group).1 = .error e) :
    r.Unaltered (r.loadRefreshable location name group).2 := by
  rcases r.loadRefreshable_cases location name group with
    ⟨id, -, done⟩ | ⟨-, -, done⟩ | ⟨-, -, sheet, -, done⟩ <;> rw [done] at failed ⊢
  · exact .refl r
  · exact ⟨_, r.parses, rfl⟩
  · cases failed

/-! ## Operations -/

theorem failure?_iff_fails {op : Operation σ} : r.failure? op = some e ↔ r.Fails op e := by
  constructor
  · intro failed
    cases op with
    | load location name group =>
      obtain ⟨vacant, withheld⟩ := load_eq_error.mp (StyleError.of?_eq_some.mp failed)
      exact .load name group vacant withheld
    | loadFromBundle path name group =>
      rcases loadFromBundle_eq_error.mp (StyleError.of?_eq_some.mp failed) with
        ⟨unknown, rfl⟩ | ⟨location, known, vacant, withheld⟩
      · exact .unresolved name group unknown
      · exact .resolved name group known vacant withheld
    | loadRefreshable location name group =>
      obtain ⟨vacant, absent, rfl⟩ := loadRefreshable_eq_error.mp (StyleError.of?_eq_some.mp failed)
      exact .loadRefreshable name group vacant absent
    | setActive id active =>
      obtain ⟨unloaded, rfl⟩ := setActive_eq_error.mp (StyleError.of?_eq_some.mp failed)
      exact .setActive active unloaded
    | reload id force =>
      rcases reload_eq_error.mp (StyleError.of?_eq_some.mp failed) with
        ⟨unloaded, rfl⟩ | ⟨s, loaded, fixed, rfl⟩
      · exact .reloadUnloaded force unloaded
      · exact .reloadFixed force loaded fixed
    | unload id =>
      obtain ⟨unloaded, rfl⟩ := unload_eq_error.mp (StyleError.of?_eq_some.mp failed)
      exact .unload unloaded
    | _ => cases failed
  · intro fails
    cases fails with
    | load name group vacant withheld => exact StyleError.of?_eq_some.mpr (load_eq_error.mpr ⟨vacant, withheld⟩)
    | unresolved name group unknown =>
      exact StyleError.of?_eq_some.mpr (loadFromBundle_eq_error.mpr (.inl ⟨unknown, rfl⟩))
    | resolved name group known vacant withheld =>
      exact StyleError.of?_eq_some.mpr (loadFromBundle_eq_error.mpr (.inr ⟨_, known, vacant, withheld⟩))
    | loadRefreshable name group vacant absent =>
      exact StyleError.of?_eq_some.mpr (loadRefreshable_eq_error.mpr ⟨vacant, absent, rfl⟩)
    | setActive active unloaded => exact StyleError.of?_eq_some.mpr (setActive_eq_error.mpr ⟨unloaded, rfl⟩)
    | reloadUnloaded force unloaded => exact StyleError.of?_eq_some.mpr (reload_eq_error.mpr (.inl ⟨unloaded, rfl⟩))
    | reloadFixed force loaded fixed =>
      exact StyleError.of?_eq_some.mpr (reload_eq_error.mpr (.inr ⟨_, loaded, fixed, rfl⟩))
    | unload unloaded => exact StyleError.of?_eq_some.mpr (unload_eq_error.mpr ⟨unloaded, rfl⟩)

theorem unaltered_of_failure {op : Operation σ} (failed : r.failure? op = some e) :
    r.Unaltered (r.perform op) := by
  cases op with
  | load location name group => exact unaltered_load (StyleError.of?_eq_some.mp failed)
  | loadFromBundle path name group => exact unaltered_loadFromBundle (StyleError.of?_eq_some.mp failed)
  | loadRefreshable location name group => exact unaltered_loadRefreshable (StyleError.of?_eq_some.mp failed)
  | setActive id active => exact unaltered_setActive (StyleError.of?_eq_some.mp failed)
  | reload id force => exact unaltered_reload (StyleError.of?_eq_some.mp failed)
  | unload id => exact unaltered_unload (StyleError.of?_eq_some.mp failed)
  | _ => cases failed

/-- **An operation that fails changes nothing**, and it fails just where one of its checks does, with the error of
that check. Nothing is asked of the repository: it need not have been reached by a run. -/
theorem failure_unaltered (r : Repository σ) (op : Operation σ) (e : StyleError) :
    (r.failure? op = some e ↔ r.Fails op e) ∧ (r.failure? op = some e → r.Unaltered (r.perform op)) :=
  ⟨failure?_iff_fails, unaltered_of_failure⟩

/-- The location of the sheet that `halting` cannot load. -/
def gibberish : Location := ⟨"mem://gibberish.css"⟩

/-- A repository with a watched sheet, an observer, and a file that its parser does not understand. -/
def halting : Repository MemoryFiles :=
  let parser := fun text => if text = "?" then .error (.emptyValue 0) else .ok .empty
  let files := (MemoryFiles.empty.write Owner.menu "a").write gibberish "?"
  ((empty files parser (some (.empty none)) .standard).perform .subscribe).perform
    (.loadRefreshable Owner.menu none none)

/-- The file was read and parsed in vain; the sheet, its watch and the log of the observer are as they were. -/
theorem failure_unaltered_halting :
    halting.Fails (.load gibberish none none) (.parseFailed gibberish (.emptyValue 0)) ∧
      halting.Unaltered (halting.perform (.load gibberish none none)) ∧
      (halting.perform (.load gibberish none none)).parses = halting.parses + 1 := by
  have failed : halting.failure? (.load gibberish none none)
      = some (.parseFailed gibberish (.emptyValue 0)) := rfl
  obtain ⟨exact, unaltered⟩ := failure_unaltered halting (.load gibberish none none)
    (.parseFailed gibberish (.emptyValue 0))
  exact ⟨exact.mp failed, unaltered failed, rfl⟩

end Repository

end Stylebook
