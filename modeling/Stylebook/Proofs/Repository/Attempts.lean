import Stylebook.Proofs.Repository.Announcements
import Stylebook.Proofs.Repository.Changes

/-!
# Attempts

To refresh a loaded sheet is to make an attempt at it: the source is asked for the revision, and read unless it
bears the one that is recorded. An `Attempt` is the record of this, with the time, the occasion and what the source
answered, and everything that a refresh does can be told from the record: the outcome, the report, the questions
that were put to the source, and what has become of the sheet.

`Repository.attempts` is the row of attempts that an operation makes, in their order. It is computed along the
states that the operation goes through, so that each attempt has the answer of the source as it was when the
attempt was made. `Undergoes` says what the row is good for: between the two states nothing happened to the sheets,
to the source and to what is reported but these attempts. It composes as operations do.
-/

set_option autoImplicit false

namespace Stylebook

/-! ## What is recorded of an attempt -/

/-- What a source answers when it is to be read. -/
inductive Answer where
  | missing
  | unreadable (cause : ReadError)
  | text (text : String)
  deriving DecidableEq

/-- A question that is put to a source. -/
inductive Question where
  | modified (location : Location)
  | isPresent (location : Location)
  | read (location : Location)
  deriving DecidableEq

/-- Why a sheet is refreshed. -/
inductive Occasion where
  /-- Every sheet that is due is refreshed. -/
  | poll (force : Bool)
  /-- This one sheet is to be refreshed. -/
  | reload (force : Bool)
  deriving DecidableEq

def Question.location : Question → Location
  | modified location | isPresent location | read location => location

def Occasion.force : Occasion → Bool
  | poll force | reload force => force

namespace Answer

/-- The source could not be read. -/
def isLost : Answer → Bool
  | text _ => false
  | _ => true

/-- What a fetch makes of the answer. -/
def understood (parser : String → Except ParseError Content) (location : Location) :
    Answer → Except StyleError Content
  | missing => .error (.notFound location.text)
  | unreadable cause => .error (.readFailed location cause)
  | text words =>
    match parser words with
    | .ok content => .ok content
    | .error cause => .error (.parseFailed location cause)

theorem understood_eq_ok {parser : String → Except ParseError Content} {location : Location} {answer : Answer}
    {content : Content} : answer.understood parser location = .ok content ↔
      ∃ words, answer = .text words ∧ parser words = .ok content := by
  cases answer with
  | missing => simp [understood]
  | unreadable cause => simp [understood]
  | text words => cases parsed : parser words <;> simp [understood, parsed]

/-- What it took to get the answer. -/
def questions (location : Location) : Answer → List Question
  | missing => [.isPresent location]
  | _ => [.isPresent location, .read location]

theorem location_of_mem_questions {answer : Answer} {location : Location} {q : Question}
    (h : q ∈ answer.questions location) : q.location = location := by
  cases answer <;> simp only [questions, List.mem_cons, List.not_mem_nil, or_false] at h
  · rw [h, Question.location]
  all_goals rcases h with rfl | rfl <;> rfl

end Answer

/-- The record of one refresh of a loaded sheet. -/
structure Attempt where
  sheet : SheetId
  location : Location
  time : Nat
  occasion : Occasion
  /-- The revision that the source bore. -/
  revision : Option Revision
  /-- What the source answered; nothing if it bore the recorded revision, so that it was not read. -/
  answer : Option Answer
  deriving DecidableEq

namespace Attempt

variable {parser : String → Except ParseError Content} {a : Attempt}

def outcome (parser : String → Except ParseError Content) (a : Attempt) : Outcome :=
  match a.answer with
  | none => .unchanged
  | some answer => .ofFetch (answer.understood parser a.location)

theorem outcome_of_none (unread : a.answer = none) : a.outcome parser = .unchanged := by
  simp [outcome, unread]

theorem outcome_of_some {given : Answer} (read : a.answer = some given) :
    a.outcome parser = .ofFetch (given.understood parser a.location) := by
  simp [outcome, read]

/-- How the end of the refresh is reported. -/
def report (parser : String → Except ParseError Content) (a : Attempt) : Event :=
  .didRefresh a.sheet a.location (a.outcome parser)

/-- The questions that were put to the source, in order. -/
def questions (a : Attempt) : List Question :=
  .modified a.location :: (a.answer.map (·.questions a.location)).getD []

/-- The attempts at one sheet. -/
def atSheet (id : SheetId) (as : List Attempt) : List Attempt :=
  as.filter fun a => a.sheet = id

theorem atSheet_append (id : SheetId) (as bs : List Attempt) :
    atSheet id (as ++ bs) = atSheet id as ++ atSheet id bs :=
  List.filter_append ..

theorem mem_atSheet {id : SheetId} {as : List Attempt} :
    a ∈ atSheet id as ↔ a ∈ as ∧ a.sheet = id := by
  simp [atSheet]

/-- The questions of an attempt are about the location of its sheet. -/
theorem location_of_mem_questions {q : Question} (h : q ∈ a.questions) : q.location = a.location := by
  unfold questions at h
  rcases List.mem_cons.mp h with rfl | h
  · rfl
  · cases answered : a.answer with
    | none => simp [answered] at h
    | some answer =>
      rw [answered] at h
      exact Answer.location_of_mem_questions h

end Attempt

namespace Sheet

variable {parser : String → Except ParseError Content} {s : Sheet} {a : Attempt}

/-- What becomes of a sheet by an attempt. -/
def after (parser : String → Except ParseError Content) (s : Sheet) (a : Attempt) : Sheet :=
  match a.answer with
  | none => s
  | some answer => s.afterFetch a.revision a.time (answer.understood parser a.location)

theorem after_of_none (unread : a.answer = none) : s.after parser a = s := by
  simp [after, unread]

theorem after_of_some {given : Answer} (read : a.answer = some given) :
    s.after parser a = s.afterFetch a.revision a.time (given.understood parser a.location) := by
  simp [after, read]

@[simp] theorem outline_after : (s.after parser a).outline = s.outline := by
  unfold after
  split
  · rfl
  · exact outline_afterFetch ..

theorem isRefreshable_of_isPolling (polling : s.isPolling = true) : s.isRefreshable := by
  unfold isPolling at polling
  unfold isRefreshable
  cases refreshed : s.refresh with
  | none => simp [refreshed] at polling
  | some state => rfl

end Sheet

/-- The event says how a refresh ended. -/
def Event.isReport : Event → Bool
  | didRefresh .. => true
  | _ => false

namespace Repository

variable {σ : Type} {r r' r'' : Repository σ} {as bs : List Attempt}

/-! ## What is loaded when an attempt is made -/

/-- What is loaded, and from where, and whether it is refreshed, is in the outline. -/
theorem get?_of_outline (same : r'.outline = r.outline) {id : SheetId} {s' : Sheet} (loaded : r'.get? id = some s') :
    ∃ s, r.get? id = some s ∧ s.location = s'.location ∧ s.isRefreshable = s'.isRefreshable := by
  obtain ⟨s, there, outline⟩ := get?_of_view (congrArg Outline.sheet? same) loaded
  have refreshable := congrArg Sheet.isRefreshable outline
  rw [Sheet.isRefreshable_outline, Sheet.isRefreshable_outline] at refreshable
  have location : s.outline.location = s'.outline.location := congrArg Sheet.location outline
  exact ⟨s, there, location, refreshable⟩

/-- A poll refreshes sheets that are loaded and refreshed. -/
theorem mem_polled {force : Bool} {id : SheetId} (h : id ∈ r.polled force) :
    ∃ s, r.get? id = some s ∧ s.isRefreshable := by
  obtain ⟨⟨k, s⟩, listed, rfl⟩ := List.mem_map.mp h
  obtain ⟨entry, due⟩ := List.mem_filter.mp listed
  obtain ⟨k', -, found⟩ := List.mem_filterMap.mp entry
  obtain ⟨s', loaded, same⟩ := Option.map_eq_some_iff.mp found
  cases same
  refine ⟨s, loaded, ?_⟩
  simp only [Bool.and_eq_true] at due
  exact Sheet.isRefreshable_of_isPolling due.1.2

variable [Source σ]

/-! ## The attempts of an operation -/

/-- The source after a question was put to it. -/
def ask (source : σ) : Question → σ
  | .modified location => (Source.modified source location).2
  | .isPresent location => (Source.isPresent source location).2
  | .read location => (Source.read source location).2

/-- What the source answers when it is to be read. -/
def answer (source : σ) (location : Location) : Answer :=
  match Source.isPresent source location with
  | (false, _) => .missing
  | (true, source) =>
    match (Source.read source location).1 with
    | .error cause => .unreadable cause
    | .ok text => .text text

/-- Each attempt of the row has the revision and the text that the source answered when its turn came. -/
def Truthful (source : σ) : List Attempt → Prop
  | [] => True
  | a :: rest =>
    a.revision = (Source.modified source a.location).1 ∧
    (∀ given, a.answer = some given → given = answer (Source.modified source a.location).2 a.location) ∧
    Truthful (a.questions.foldl ask source) rest

theorem truthful_append {source : σ} {as bs : List Attempt} (first : Truthful source as)
    (second : Truthful ((as.flatMap (·.questions)).foldl ask source) bs) : Truthful source (as ++ bs) := by
  induction as generalizing source with
  | nil => exact second
  | cons a rest ih =>
    obtain ⟨revision, given, others⟩ := first
    refine ⟨revision, given, ih others ?_⟩
    rwa [List.flatMap_cons, List.foldl_append] at second

instance (r : Repository σ) (s : Sheet) : Decidable (r.Bears s) :=
  inferInstanceAs (Decidable (_ ∧ _))

/-- The attempt at a sheet that is loaded. -/
def attempt (r : Repository σ) (occasion : Occasion) (id : SheetId) (s : Sheet) : Attempt where
  sheet := id
  location := s.location
  time := r.now
  occasion := occasion
  revision := (Source.modified r.source s.location).1
  answer :=
    if occasion.force = false ∧ r.Bears s then none
    else some (answer (Source.modified r.source s.location).2 s.location)

/-- The attempt that a refresh makes, if the sheet is loaded. -/
def refreshAttempts (r : Repository σ) (occasion : Occasion) (id : SheetId) : List Attempt :=
  (r.get? id).toList.map (r.attempt occasion id)

/-- The attempts that are made for one item of a row after another, each in the state that the ones before it have
left. -/
def along {α : Type} (f : Repository σ → α → Repository σ) (made : Repository σ → α → List Attempt) :
    List α → Repository σ → List Attempt
  | [], _ => []
  | a :: rest, r => made r a ++ along f made rest (f r a)

def pollAttempts (r : Repository σ) (force : Bool) : List Attempt :=
  let r := r.emit (.willRefresh none)
  along (fun r id => (r.refresh id force).2) (fun r id => r.refreshAttempts (.poll force) id) (r.polled force) r

def reloadAttempts (r : Repository σ) (id : SheetId) (force : Bool) : List Attempt :=
  if (r.get? id).any (·.isRefreshable) then
    (r.emit (.willRefresh (some id))).refreshAttempts (.reload force) id
  else []

def requestAttempts (r : Repository σ) : Request → List Attempt
  | .poll => r.pollAttempts false
  | .modified id => r.reloadAttempts id true

def nextAttempts (r : Repository σ) : List Attempt :=
  match r.queue with
  | [] => []
  | request :: rest => { r with queue := rest }.requestAttempts request

/-- The first refresh of a sheet that is loaded to be refreshed. -/
def loadAttempts (r : Repository σ) (location : Location) (name group : Option String) : List Attempt :=
  if (r.idAt? location).isNone && (Source.isPresent r.source location).1 then
    ((r.asked location).insert (Sheet.build location .empty name group).refreshable).2.reloadAttempts
      ⟨r.nextIndex⟩ true
  else []

/-- The attempts that an operation makes, in order. -/
def attempts (r : Repository σ) : Operation σ → List Attempt
  | .reload id force => r.reloadAttempts id force
  | .reloadAll force => r.pollAttempts force
  | .processPending => along handle requestAttempts r.queue { r with queue := [] }
  | .awaitRequest limit => (r.waiting limit).nextAttempts
  | .loadRefreshable location name group => r.loadAttempts location name group
  | _ => []

/-! ## Nothing but attempts -/

/-- From `r` to `r'`, a row of attempts is made, and nothing else happens to the sheets, to the source and to what is
reported. -/
structure Undergoes (r : Repository σ) (as : List Attempt) (r' : Repository σ) : Prop where
  outline : r'.outline = r.outline
  sheets : ∀ id, r'.get? id = (r.get? id).map fun s => (Attempt.atSheet id as).foldl (·.after r.parser) s
  source : r'.source = (as.flatMap (·.questions)).foldl ask r.source
  truthful : Truthful r.source as
  told : ∃ events, r.Tells events r' ∧ events.filter Event.isReport = as.map (·.report r.parser)
  /-- Each attempt is at a loaded sheet that is refreshed. -/
  made : ∀ a ∈ as, a.time = r.now ∧ ∃ s, r.get? a.sheet = some s ∧ s.isRefreshable ∧ s.location = a.location

namespace Undergoes

theorem refl (r : Repository σ) : r.Undergoes [] r where
  outline := rfl
  sheets id := by simp [Attempt.atSheet]
  source := rfl
  truthful := trivial
  told := ⟨[], .silent rfl, rfl⟩
  made _ h := absurd h (by simp)

theorem trans (first : r.Undergoes as r') (second : r'.Undergoes bs r'') : r.Undergoes (as ++ bs) r'' := by
  have parser := parser_of_outline first.outline
  refine ⟨second.outline.trans first.outline, fun id => ?_, ?_, ?_, ?_, fun a ha => ?_⟩
  · rw [second.sheets, first.sheets, Option.map_map, parser]
    congr 1
    funext s
    rw [Function.comp_apply, Attempt.atSheet_append, List.foldl_append]
  · rw [second.source, first.source, List.flatMap_append, List.foldl_append]
  · exact truthful_append first.truthful (first.source ▸ second.truthful)
  · obtain ⟨events, tells, reports⟩ := first.told
    obtain ⟨events', tells', reports'⟩ := second.told
    refine ⟨events ++ events', tells.trans tells', ?_⟩
    rw [List.filter_append, reports, reports', parser, List.map_append]
  · rcases List.mem_append.mp ha with ha | ha
    · exact first.made a ha
    · -- the sheet was loaded before the first row, from the same location
      obtain ⟨time, s', loaded', refreshable', location'⟩ := second.made a ha
      obtain ⟨s, loaded, location, refreshable⟩ := get?_of_outline first.outline loaded'
      exact ⟨time.trans (now_of_outline first.outline), s, loaded, refreshable.trans refreshable',
        location.trans location'⟩

/-- An event that reports nothing is no attempt. -/
theorem emit (r : Repository σ) {e : Event} (silent : e.isReport = false) : r.Undergoes [] (r.emit e) where
  outline := rfl
  sheets id := by simp [Attempt.atSheet]
  source := rfl
  truthful := trivial
  told := ⟨[e], tells_emit r e, by simp [silent]⟩
  made _ h := absurd h (by simp)

/-- A row of steps, each of which makes its attempts, by induction on the row. No attempt changes the outline, so it
is enough to know of each step what it does where the outline is the one at the start. -/
theorem foldl {α : Type} {f : Repository σ → α → Repository σ} {made : Repository σ → α → List Attempt}
    (row : List α) (r : Repository σ)
    (steps : ∀ r' : Repository σ, r'.outline = r.outline → ∀ a ∈ row, r'.Undergoes (made r' a) (f r' a)) :
    r.Undergoes (along f made row r) (row.foldl f r) := by
  induction row generalizing r with
  | nil => exact refl r
  | cons a rest ih =>
    have first := steps r rfl a List.mem_cons_self
    refine first.trans (ih _ fun r' same b hb => ?_)
    exact steps r' (same.trans first.outline) b (List.mem_cons_of_mem a hb)

end Undergoes

/-! ## Refreshes -/

theorem fetch_fst (r : Repository σ) (location : Location) :
    (r.fetch location).1 = (answer r.source location).understood r.parser location := by
  unfold fetch answer
  obtain ⟨there, asked⟩ := Source.isPresent r.source location
  cases there with
  | false => rfl
  | true =>
    dsimp only
    obtain ⟨given, read⟩ := Source.read asked location
    cases given <;> rfl

theorem source_fetch (r : Repository σ) (location : Location) :
    (r.fetch location).2.source = ((answer r.source location).questions location).foldl ask r.source := by
  unfold fetch answer
  cases present : Source.isPresent r.source location with
  | mk there asked =>
    cases there with
    | false => simp [Answer.questions, ask, present]
    | true =>
      cases given : Source.read asked location with
      | mk answer read => cases answer <;> simp [Answer.questions, ask, present, given]

theorem answer_attempt_of_bears {id : SheetId} {s : Sheet} {occasion : Occasion} (unforced : occasion.force = false)
    (bears : r.Bears s) : (r.attempt occasion id s).answer = none :=
  if_pos ⟨unforced, bears⟩

theorem answer_attempt_of_read {id : SheetId} {s : Sheet} {occasion : Occasion}
    (due : ¬ (occasion.force = false ∧ r.Bears s)) : (r.attempt occasion id s).answer
      = some (answer (Source.modified r.source s.location).2 s.location) :=
  if_neg due

/-- The sheet that was read has become what the attempt says. -/
theorem after_attempt_of_read {id : SheetId} {s : Sheet} {occasion : Occasion}
    (due : ¬ (occasion.force = false ∧ r.Bears s)) :
    s.after r.parser (r.attempt occasion id s) = s.afterFetch (Source.modified r.source s.location).1
      ((r.dated s.location).fetch s.location).2.now ((r.dated s.location).fetch s.location).1 := by
  have now := now_of_outline (outline_fetch (r.dated s.location) s.location)
  rw [Sheet.after_of_some (answer_attempt_of_read due), now, fetch_fst]
  rfl

theorem outcome_refresh {id : SheetId} {s : Sheet} (loaded : r.get? id = some s) (occasion : Occasion) :
    (r.refresh id occasion.force).1 = (r.attempt occasion id s).outcome r.parser := by
  rcases refresh_cases loaded occasion.force with ⟨unforced, bears, done⟩ | ⟨due, outcome, rfl, done⟩ <;> rw [done]
  · rw [Attempt.outcome_of_none (answer_attempt_of_bears unforced bears)]
  · rw [Attempt.outcome_of_some (answer_attempt_of_read due), fetch_fst]
    rfl

/-- The sheet becomes what the attempt makes of it, and the others stay. -/
theorem get?_refresh {id : SheetId} {s : Sheet} (loaded : r.get? id = some s) (occasion : Occasion) (k : SheetId) :
    (r.refresh id occasion.force).2.get? k
      = if id = k then some (s.after r.parser (r.attempt occasion id s)) else r.get? k := by
  rcases refresh_cases loaded occasion.force with ⟨unforced, bears, done⟩ | ⟨due, outcome, -, done⟩ <;>
    rw [done, get?_emit]
  · rw [Sheet.after_of_none (answer_attempt_of_bears unforced bears)]
    split
    · rename_i same
      exact same ▸ loaded
    · rfl
  · rw [get?_reread loaded, after_attempt_of_read due]

theorem source_refresh {id : SheetId} {s : Sheet} (loaded : r.get? id = some s) (occasion : Occasion) :
    (r.refresh id occasion.force).2.source = (r.attempt occasion id s).questions.foldl ask r.source := by
  unfold Attempt.questions
  rcases refresh_cases loaded occasion.force with ⟨unforced, bears, done⟩ | ⟨due, outcome, -, done⟩ <;> rw [done]
  · rw [answer_attempt_of_bears unforced bears]
    rfl
  · rw [answer_attempt_of_read due]
    show (r.reread id s).source = _
    unfold reread
    rw [source_update, source_fetch]
    rfl

theorem truthful_attempt (r : Repository σ) (occasion : Occasion) (id : SheetId) (s : Sheet) :
    Truthful r.source [r.attempt occasion id s] := by
  refine ⟨rfl, fun given answered => ?_, trivial⟩
  unfold attempt at answered
  dsimp only at answered
  split at answered <;> cases answered
  rfl

/-- **A refresh is one attempt.** -/
theorem undergoes_refresh {id : SheetId} {s : Sheet} (loaded : r.get? id = some s) (refreshable : s.isRefreshable)
    (occasion : Occasion) :
    r.Undergoes (r.refreshAttempts occasion id) (r.refresh id occasion.force).2 := by
  have made : r.refreshAttempts occasion id = [r.attempt occasion id s] := by
    simp [refreshAttempts, loaded]
  rw [made]
  refine ⟨outline_refresh .., fun k => ?_, ?_, truthful_attempt .., ?_, fun a ha => ?_⟩
  · have here : (r.attempt occasion id s).sheet = id := rfl
    rw [get?_refresh loaded]
    by_cases same : id = k
    · subst same
      simp [Attempt.atSheet, here, loaded]
    · simp [Attempt.atSheet, here, same]
  · rw [source_refresh loaded, List.flatMap_singleton]
  · obtain ⟨outcome, r', refresh⟩ := refreshes_refresh loaded occasion.force
    have ended : (r.refresh id occasion.force).1 = _ := outcome_refresh loaded occasion
    rw [refresh.done] at ended ⊢
    dsimp only at ended
    subst ended
    exact ⟨_, refresh.tells, rfl⟩
  · obtain rfl := List.mem_singleton.mp ha
    exact ⟨rfl, s, loaded, refreshable, rfl⟩

/-! ## Operations -/

theorem undergoes_reloadAll (r : Repository σ) (force : Bool) :
    r.Undergoes (r.pollAttempts force) (r.reloadAll force) := by
  have announced : r.Undergoes [] (r.emit (.willRefresh none)) := .emit r rfl
  refine announced.trans (.foldl (r.polled force) _ fun r' same id due => ?_)
  obtain ⟨s, loaded, refreshable⟩ := mem_polled due
  -- no sheet is unloaded before its turn comes
  obtain ⟨s', loaded', -, refreshable'⟩ := get?_of_outline same.symm loaded
  exact undergoes_refresh loaded' (refreshable'.trans refreshable) (.poll force)

theorem undergoes_reload (r : Repository σ) (id : SheetId) (force : Bool) :
    r.Undergoes (r.reloadAttempts id force) (r.reload id force).2 := by
  unfold reloadAttempts
  rcases r.reload_cases id force with ⟨s, loaded, refreshable, done⟩ | ⟨declined, e, done⟩ <;> rw [done]
  · have announced : r.Undergoes [] (r.emit (.willRefresh (some id))) := .emit r rfl
    rw [if_pos (by simp [loaded, refreshable])]
    exact announced.trans (undergoes_refresh (r := r.emit _) loaded refreshable (.reload force))
  · rw [if_neg]
    · exact .refl r
    · cases loaded : r.get? id with
      | none => simp
      | some s => simp [declined s loaded]

theorem undergoes_handle (r : Repository σ) (request : Request) :
    r.Undergoes (r.requestAttempts request) (r.handle request) := by
  cases request with
  | poll => exact undergoes_reloadAll r false
  | modified id => exact undergoes_reload r id true

/-- To take requests from the queue is no attempt. -/
theorem Undergoes.of_requeue {queue : List Request} (h : ({ r with queue := queue } : Repository σ).Undergoes as r') :
    r.Undergoes as r' :=
  ⟨h.outline, h.sheets, h.source, h.truthful, h.told, h.made⟩

theorem undergoes_processPending (r : Repository σ) :
    r.Undergoes (r.attempts .processPending) r.processPending.2 := by
  have handled : ({ r with queue := [] } : Repository σ).Undergoes _ _ :=
    .foldl r.queue _ fun r' _ request _ => undergoes_handle r' request
  exact handled.of_requeue

theorem undergoes_processNext (r : Repository σ) : r.Undergoes r.nextAttempts r.processNext.2 := by
  unfold nextAttempts processNext
  cases r.queue with
  | nil => exact .refl r
  | cons request rest => exact (undergoes_handle { r with queue := rest } request).of_requeue

end Repository

end Stylebook
