import Stylebook.Proofs.Repository.Attempts

/-!
# Refreshes are framed and atomic

Whatever a refresh finds, be it the recorded revision, nothing, a source that cannot be read or a text that cannot
be understood, there are two ends for the content of the sheet: it is that of the text that was read, and the
refresh is reported as refreshed, or it is what it was. There is nothing in between, although the content, the
revision and the time of the failure are written one after another.

`Leaves` says this of a row of attempts at one sheet, and `Framed` of a repository and any row of attempts: the
order, the loaded sheets and their labels are what they were, and each sheet has the content that the attempts at it
leave. Reloading, polling and handling what is queued are framed, whatever the repository is like.
-/

set_option autoImplicit false

namespace Stylebook

/-! ## The content of one sheet -/

/-- Where a sheet is from, what it is called, and whether it takes part in lookups. -/
def Sheet.label (s : Sheet) : Location × String × Option String × Bool :=
  (s.location, s.name, s.group, s.active)

variable {parser : String → Except ParseError Content}

/-- The content that a row of attempts at a sheet leaves: that of the text that was read by the last one that ended
as refreshed, or the old one if none did. -/
inductive Leaves (parser : String → Except ParseError Content) (content : Content) : List Attempt → Content → Prop where
  | kept {as : List Attempt} (none : ∀ a ∈ as, a.outcome parser ≠ .refreshed) : Leaves parser content as content
  | read {before after : List Attempt} {a : Attempt} {text : String} {content' : Content}
      (refreshed : a.outcome parser = .refreshed) (last : ∀ b ∈ after, b.outcome parser ≠ .refreshed)
      (given : a.answer = some (.text text)) (understood : parser text = .ok content') :
      Leaves parser content (before ++ a :: after) content'

namespace Sheet

/-- An attempt that ends as unchanged or failed keeps the content. -/
theorem content_after_of_ne (s : Sheet) {a : Attempt} (other : a.outcome parser ≠ .refreshed) :
    (s.after parser a).content = s.content := by
  cases answered : a.answer with
  | none => rw [after_of_none answered]
  | some given =>
    rw [Attempt.outcome_of_some answered] at other
    rw [after_of_some answered]
    cases fetched : given.understood parser a.location with
    | ok content =>
      rw [fetched] at other
      exact absurd rfl other
    | error e => exact content_afterFetch_error ..

/-- An attempt that ends as refreshed puts in the content of the text that was read. -/
theorem content_after_of_refreshed (s : Sheet) {a : Attempt} (refreshed : a.outcome parser = .refreshed) :
    ∃ text, a.answer = some (.text text) ∧ parser text = .ok (s.after parser a).content := by
  cases answered : a.answer with
  | none =>
    rw [Attempt.outcome_of_none answered] at refreshed
    cases refreshed
  | some given =>
    rw [Attempt.outcome_of_some answered] at refreshed
    obtain ⟨content, fetched⟩ := Outcome.ofFetch_eq_refreshed.mp refreshed
    obtain ⟨words, rfl, parsed⟩ := Answer.understood_eq_ok.mp fetched
    refine ⟨words, rfl, ?_⟩
    rw [after_of_some answered, fetched, content_afterFetch_ok]
    exact parsed

/-- By induction on the row: only the last attempt that ended as refreshed is seen. -/
theorem leaves_foldl_after (as : List Attempt) (s : Sheet) :
    Leaves parser s.content as (as.foldl (·.after parser) s).content := by
  induction as generalizing s with
  | nil => exact .kept (by simp)
  | cons a rest ih =>
    rw [List.foldl_cons]
    generalize left : (rest.foldl (·.after parser) (s.after parser a)).content = content
    have others := ih (s.after parser a)
    rw [left] at others
    cases others with
    | read refreshed last given understood =>
      rw [← List.cons_append]
      exact .read refreshed last given understood
    | kept none =>
      by_cases refreshed : a.outcome parser = .refreshed
      · obtain ⟨text, given, understood⟩ := s.content_after_of_refreshed refreshed
        rw [← List.nil_append (a :: rest)]
        exact .read refreshed none given understood
      · rw [s.content_after_of_ne refreshed]
        exact .kept (List.forall_mem_cons.mpr ⟨refreshed, none⟩)

theorem label_outline (s : Sheet) : s.outline.label = s.label := rfl

end Sheet

/-! ## The repository -/

namespace Repository

variable {σ : Type} [Source σ] {r r' : Repository σ} {as : List Attempt}

/-- A row of attempts is made, each of which is reported, and changes the content of its sheet at most. -/
structure Framed (r : Repository σ) (as : List Attempt) (r' : Repository σ) : Prop where
  order : r'.order = r.order
  /-- The same sheets are loaded, under the same labels. -/
  labels : ∀ id, (r'.get? id).map Sheet.label = (r.get? id).map Sheet.label
  contents : ∀ id s s', r.get? id = some s → r'.get? id = some s' →
    Leaves r.parser s.content (Attempt.atSheet id as) s'.content
  /-- The attempts are told with what the source answered to them. -/
  truthful : Truthful r.source as
  reported : ∃ events, r.Heard events r' ∧ events.filter Event.isReport = as.map (·.report r.parser)

theorem Undergoes.framed (h : r.Undergoes as r') : r.Framed as r' where
  order := order_of_outline h.outline
  labels id := congrFun (view_of_outline Sheet.label_outline h.outline) id
  contents id s s' loaded loaded' := by
    have there := h.sheets id
    rw [loaded, loaded', Option.map_some] at there
    rw [Option.some.inj there]
    exact s.leaves_foldl_after _
  truthful := h.truthful
  reported := by
    obtain ⟨events, tells, reports⟩ := h.told
    exact ⟨events, tells.heard, reports⟩

/-- Reloading a sheet, polling, and handling what is queued leave the order, the loaded sheets and their labels
alone, and give a sheet no content but that of the text that was read in the last refresh of it that ended as
refreshed. A reload leaves every other sheet as it was. And one refresh, forced or not, either ends as refreshed,
and the sheet has the content of the text that the source gave, or the sheet keeps its content. -/
theorem refreshing_framed (r : Repository σ) :
    (∀ id force, r.Framed (r.attempts (.reload id force)) (r.reload id force).2) ∧
    (∀ force, r.Framed (r.attempts (.reloadAll force)) (r.reloadAll force)) ∧
    r.Framed (r.attempts .processPending) r.processPending.2 ∧
    (∀ id force k, id ≠ k → (r.reload id force).2.get? k = r.get? k) ∧
    ∀ id force s, r.get? id = some s → ∃ s', (r.refresh id force).2.get? id = some s' ∧
      ((r.refresh id force).1 = .refreshed → ∃ text,
        Gives (Source.modified r.source s.location).2 s.location text ∧ r.parser text = .ok s'.content) ∧
      ((r.refresh id force).1 ≠ .refreshed → s'.content = s.content) := by
  refine ⟨fun id force => (undergoes_reload r id force).framed, fun force => (undergoes_reloadAll r force).framed,
    (undergoes_processPending r).framed, fun id force k other => get?_reload_of_ne other force, ?_⟩
  intro id force s loaded
  obtain ⟨outcome, r', refresh⟩ := refreshes_refresh loaded force
  rw [refresh.done]
  cases outcome with
  | refreshed =>
    obtain ⟨text, content, s', given, understood, loaded', same⟩ := refresh.refreshed rfl
    exact ⟨s', loaded', fun _ => ⟨text, given, same ▸ understood⟩, fun other => absurd rfl other⟩
  | unchanged =>
    have there : r'.get? id = some s := by
      rw [get?, (refresh.unchanged rfl).2]
      exact loaded
    exact ⟨s, there, fun same => absurd same (by simp), fun _ => rfl⟩
  | failed reason =>
    obtain ⟨s', loaded', same⟩ := refresh.failed reason rfl
    exact ⟨s', loaded', fun other => absurd other (by simp), fun _ => same⟩

end Repository

end Stylebook
