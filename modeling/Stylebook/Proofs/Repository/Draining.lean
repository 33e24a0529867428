import Stylebook.Proofs.Repository.Refreshes

/-!
# Handling what is queued

To handle everything that is queued is to handle the oldest request until none is left. `Drains` is that loop, with
the row of requests that it handled, and `drains_iff` says where it ends: each queued request was handled once, in
the order in which they came, and the repository is the one that `processPending` answers.

This rests on what handling a request leaves alone: it neither looks at the requests behind nor adds any
(`handle_requeue`, `queue_handle`).
-/

set_option autoImplicit false

namespace Stylebook.Repository

variable {σ : Type} {r r' : Repository σ} {request : Request} {rest : List Request}

/-- The repository with other requests queued. -/
def requeue (r : Repository σ) (queue : List Request) : Repository σ :=
  { r with queue := queue }

theorem requeue_eq_self {queue : List Request} (same : r.queue = queue) : r.requeue queue = r := by
  subst same
  rfl

/-! ## Requests behind the one that is handled -/

theorem update_requeue (r : Repository σ) (queue : List Request) (id : SheetId) (f : Sheet → Sheet) :
    (r.requeue queue).update id f = (r.update id f).requeue queue := by
  have same : (r.requeue queue).get? id = r.get? id := rfl
  unfold update
  rw [same]
  cases r.get? id <;> rfl

variable [Source σ]

theorem fetch_requeue (r : Repository σ) (queue : List Request) (location : Location) :
    (r.requeue queue).fetch location = ((r.fetch location).1, (r.fetch location).2.requeue queue) := by
  unfold fetch requeue
  dsimp only
  obtain ⟨there, asked⟩ := Source.isPresent r.source location
  cases there with
  | false => rfl
  | true =>
    dsimp only
    obtain ⟨answer, read⟩ := Source.read asked location
    cases answer <;> rfl

theorem reread_requeue (r : Repository σ) (queue : List Request) (id : SheetId) (s : Sheet) :
    (r.requeue queue).reread id s = (r.reread id s).requeue queue := by
  have dated : (r.requeue queue).dated s.location = (r.dated s.location).requeue queue := rfl
  unfold reread
  dsimp only
  rw [dated, fetch_requeue, update_requeue]
  rfl

theorem refresh_requeue (r : Repository σ) (queue : List Request) (id : SheetId) (force : Bool) :
    (r.requeue queue).refresh id force = ((r.refresh id force).1, (r.refresh id force).2.requeue queue) := by
  cases loaded : r.get? id with
  | none =>
    have loaded' : (r.requeue queue).get? id = none := loaded
    unfold refresh
    rw [loaded, loaded']
  | some s =>
    -- both bear the recorded revision, or neither does
    rcases refresh_cases loaded force with ⟨unforced, bears, done⟩ | ⟨due, outcome, ended, done⟩ <;>
      rcases refresh_cases (r := r.requeue queue) loaded force with
        ⟨unforced', bears', done'⟩ | ⟨due', outcome', ended', done'⟩
    · rw [done, done']
      rfl
    · exact absurd ⟨unforced, bears⟩ due'
    · exact absurd ⟨unforced', bears'⟩ due
    · have fetched := fetch_requeue (r.dated s.location) queue s.location
      have same : outcome' = outcome := by
        rw [ended, ended']
        exact congrArg (fun answer => Outcome.ofFetch answer.1) fetched
      rw [done, done', reread_requeue, same]
      rfl

theorem reload_requeue (r : Repository σ) (queue : List Request) (id : SheetId) (force : Bool) :
    (r.requeue queue).reload id force = ((r.reload id force).1, (r.reload id force).2.requeue queue) := by
  have told := refresh_requeue (r.emit (.willRefresh (some id))) queue id force
  have same : (r.requeue queue).get? id = r.get? id := rfl
  unfold reload
  rw [same]
  cases r.get? id with
  | none => rfl
  | some sheet =>
    dsimp only
    cases sheet.isRefreshable with
    | false => rfl
    | true =>
      show ((Except.ok (((r.emit _).requeue queue).refresh id force).1,
        (((r.emit _).requeue queue).refresh id force).2) : Except StyleError Outcome × Repository σ) = _
      rw [told]
      rfl

theorem foldl_refresh_requeue (ids : List SheetId) (r : Repository σ) (queue : List Request) (force : Bool) :
    ids.foldl (fun r id => (r.refresh id force).2) (r.requeue queue)
      = (ids.foldl (fun r id => (r.refresh id force).2) r).requeue queue := by
  induction ids generalizing r with
  | nil => rfl
  | cons id rest ih => rw [List.foldl_cons, refresh_requeue, ih, List.foldl_cons]

/-- What a request does is the same whatever is queued behind it. -/
theorem handle_requeue (r : Repository σ) (queue : List Request) (request : Request) :
    (r.requeue queue).handle request = (r.handle request).requeue queue := by
  cases request with
  | poll => exact foldl_refresh_requeue (r.polled false) (r.emit (.willRefresh none)) queue false
  | modified id => exact congrArg (·.2) (reload_requeue r queue id true)

theorem queue_foldl_handle (requests : List Request) (r : Repository σ) :
    (requests.foldl handle r).queue = r.queue := by
  induction requests generalizing r with
  | nil => rfl
  | cons request rest ih => rw [List.foldl_cons, ih, queue_handle]

/-! ## Draining -/

/-- Everything that was queued is handled, and nothing is left. -/
theorem queue_processPending (r : Repository σ) : r.processPending.2.queue = [] :=
  queue_foldl_handle ..

theorem processNext_of_cons (oldest : r.queue = request :: rest) :
    r.processNext = (some request, (r.requeue rest).handle request) := by
  unfold processNext
  rw [oldest]
  rfl

/-- To handle everything is to handle the oldest request, and then everything that is left. -/
theorem processPending_of_cons (oldest : r.queue = request :: rest) :
    r.processPending.2 = ((r.requeue rest).handle request).processPending.2 := by
  have left : ((r.requeue rest).handle request).queue = rest := queue_handle ..
  show r.queue.foldl handle (r.requeue []) = List.foldl handle (((r.requeue rest).handle request).requeue []) _
  rw [left, oldest, List.foldl_cons, ← handle_requeue]
  rfl

/-- The oldest request is handled, again and again, until none is left. -/
inductive Drains : Repository σ → List Request → Repository σ → Prop where
  | idle {r : Repository σ} (empty : r.queue = []) : Drains r [] r
  | next {r r' r'' : Repository σ} {request : Request} {handled : List Request}
      (oldest : r.processNext = (some request, r')) (others : Drains r' handled r'') :
      Drains r (request :: handled) r''

theorem Drains.eq {handled : List Request} (h : r.Drains handled r') :
    handled = r.queue ∧ r' = r.processPending.2 := by
  induction h with
  | @idle r empty =>
    have drained : r.processPending.2 = r.queue.foldl handle (r.requeue []) := rfl
    rw [drained, requeue_eq_self empty, empty]
    exact ⟨rfl, rfl⟩
  | @next r r' r'' request handled oldest _ ih =>
    cases queued : r.queue with
    | nil =>
      unfold processNext at oldest
      rw [queued] at oldest
      cases oldest
    | cons first rest =>
      cases (processNext_of_cons queued).symm.trans oldest
      rw [queue_handle] at ih
      rw [processPending_of_cons queued]
      exact ⟨congrArg (request :: ·) ih.1, ih.2⟩

/-- By induction on what is queued. -/
theorem drains_processPending (r : Repository σ) : r.Drains r.queue r.processPending.2 := by
  generalize queued : r.queue = requests
  induction requests generalizing r with
  | nil =>
    have drained : r.processPending.2 = r.queue.foldl handle (r.requeue []) := rfl
    rw [drained, requeue_eq_self queued, queued]
    exact .idle queued
  | cons request rest ih =>
    rw [processPending_of_cons queued]
    exact .next (processNext_of_cons queued) (ih _ (queue_handle ..))

/-- **The loop handles each queued request once, oldest first**, and ends where `processPending` does. -/
theorem drains_iff {handled : List Request} :
    r.Drains handled r' ↔ handled = r.queue ∧ r' = r.processPending.2 := by
  refine ⟨Drains.eq, ?_⟩
  rintro ⟨rfl, rfl⟩
  exact drains_processPending r

end Stylebook.Repository
