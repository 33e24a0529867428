import Stylebook.Proofs.Repository.Arrival

/-!
# Scopes put together

A union takes another scope in at its end, and any other scope becomes the first of two members of a new union. So
unions nest on one side and are flat on the other, and each kind of scope takes the default group in by a way of its own.
None of this matters to the sheets that are held: a union holds what one of its members holds (`Scope.contains_union`),
and with that scopes follow the laws of unions of sets.

The sheets in use follow the same laws. They are listed in the order of their arrival, whatever the scope
(`Owner.pairwise_activeSheets`), and as no sheet came before itself, none is listed twice.
-/

set_option autoImplicit false

namespace Stylebook

/-! ## What a scope holds -/

namespace Scope

theorem anyContains_eq (members : List Scope) (sheet : Sheet) :
    anyContains members sheet = members.any fun s => s.contains sheet := by
  induction members with
  | nil => rw [anyContains, List.any_nil]
  | cons s rest ih => rw [anyContains, ih, List.any_cons]

@[simp] theorem contains_union (members : List Scope) (sheet : Sheet) :
    (union members).contains sheet = members.any fun s => s.contains sheet := by
  rw [contains, anyContains_eq]

@[simp] theorem contains_defaultGroup (sheet : Sheet) : defaultGroup.contains sheet = sheet.group.isNone := by
  rw [contains]

/-- **A scope with another one taken in holds what one of the two holds.** -/
theorem contains_including (s t : Scope) (sheet : Sheet) :
    (s.including t).contains sheet = (s.contains sheet || t.contains sheet) := by
  cases s with
  | union members =>
    -- `t` is the last member
    rw [including, contains_union, contains_union, List.any_append, List.any_cons, List.any_nil, Bool.or_false]
  | all | defaultGroup | named | grouped =>
    simp only [including, contains_union, List.any_cons, List.any_nil, Bool.or_false]

theorem contains_includingDefault (s : Scope) (sheet : Sheet) :
    s.includingDefault.contains sheet = (s.contains sheet || sheet.group.isNone) := by
  cases s with
  | all => simp [includingDefault, contains]
  | defaultGroup => simp [includingDefault]
  | named names withDefault =>
    cases withDefault <;> simp [includingDefault, contains]
  | grouped groups withDefault =>
    cases withDefault <;> simp [includingDefault, contains]
  | union members => simp [includingDefault]

end Scope

/-! ## Sheets in use -/

namespace Repository

variable {σ : Type}

/-- What is in use for a scope with another one taken in is what is in use for one of the two. -/
theorem mem_activeSheets_including (r : Repository σ) (s t : Scope) (sheet : Sheet) :
    sheet ∈ r.activeSheets (s.including t) ↔ sheet ∈ r.activeSheets s ∨ sheet ∈ r.activeSheets t := by
  simp only [activeSheets, List.mem_filter, Scope.contains_including, Bool.and_eq_true, Bool.or_eq_true]
  rw [← and_or_left, ← and_or_left]

end Repository

namespace Owner

variable {σ : Type} [Source σ] {start : Owner σ} {ops : List (Operation σ)} {s t : Sheet}

/-- Both sheets are loaded in the end, and one has come with an earlier operation than the other. -/
def CameBefore (start : Owner σ) (ops : List (Operation σ)) (s t : Sheet) : Prop :=
  ∃ id id' k k', (start.run ops).repository.get? id = some s ∧ (start.run ops).repository.get? id' = some t ∧
    start.ArrivesAt ops id k ∧ start.ArrivesAt ops id' k' ∧ k < k'

theorem CameBefore.ne (indexed : start.repository.Indexed) (before : start.CameBefore ops s t) : s ≠ t := by
  rintro rfl
  obtain ⟨id, id', k, k', loaded, loaded', arrives, arrives', earlier⟩ := before
  have same : id = id' := (indexed_run indexed ops).distinct id id' s s loaded loaded' rfl
  have less : id.index < id'.index := (arrives.index_lt_iff indexed arrives').mpr earlier
  rw [same] at less
  exact Nat.lt_irrefl _ less

/-- **The sheets in use are listed in the order of their arrival.** -/
theorem pairwise_activeSheets (indexed : start.repository.Indexed) (empty : start.repository.order = [])
    (ops : List (Operation σ)) (scope : Scope) :
    ((start.run ops).repository.activeSheets scope).Pairwise (start.CameBefore ops) := by
  have none : start.repository.Ranked := by
    unfold Repository.Ranked
    rw [empty]
    exact List.Pairwise.nil
  have ranked : (start.run ops).repository.Ranked := ranked_run indexed none ops
  rw [Repository.activeSheets_eq]
  refine List.Pairwise.filter _ (List.pairwise_filterMap.mpr (ranked.imp ?_))
  intro id id' less s loaded t loaded'
  obtain ⟨k, arrives⟩ := arrives_of_loaded indexed empty loaded
  obtain ⟨k', arrives'⟩ := arrives_of_loaded indexed empty loaded'
  exact ⟨id, id', k, k', loaded, loaded', arrives, arrives', (arrives.index_lt_iff indexed arrives').mp less⟩

theorem nodup_activeSheets (indexed : start.repository.Indexed) (empty : start.repository.order = [])
    (ops : List (Operation σ)) (scope : Scope) : ((start.run ops).repository.activeSheets scope).Nodup :=
  (pairwise_activeSheets indexed empty ops scope).imp fun before => before.ne indexed

/-- **The laws of unions for scopes.** A scope with another one taken in holds what one of the two holds, and with the
default group taken in it holds the sheets without a group besides. So it does not matter to what is held in which order
scopes are taken in, how they are nested, and whether one is taken in twice.

Wherever a run leads, the sheets in use for a scope with another one taken in are those in use for one of the two, each
listed once and in the order of their arrival. -/
theorem including_of_run (source : σ) (parser : String → Except ParseError Content) (board : Option WatchBoard)
    (config : RefreshConfig) (hasClock : Bool) (ops : List (Operation σ)) (s t u : Scope) :
    let start := new source parser board config hasClock
    let r := (start.run ops).repository
    (∀ sheet, (s.including t).contains sheet = (s.contains sheet || t.contains sheet)) ∧
    (∀ sheet, s.includingDefault.contains sheet = (s.contains sheet || sheet.group.isNone)) ∧
    (∀ sheet, sheet ∈ r.activeSheets (s.including t) ↔ sheet ∈ r.activeSheets s ∨ sheet ∈ r.activeSheets t) ∧
    (r.activeSheets (s.including t)).Nodup ∧
    (r.activeSheets (s.including t)).Pairwise (start.CameBefore ops) ∧
    (∀ sheet, ((s.including t).including u).contains sheet = (s.including (t.including u)).contains sheet) ∧
    (∀ sheet, (s.including t).contains sheet = (t.including s).contains sheet) ∧
    ∀ sheet, (s.including s).contains sheet = s.contains sheet := by
  intro start r
  have indexed : start.repository.Indexed := Repository.indexed_of_empty rfl fun _ => rfl
  refine ⟨s.contains_including t, s.contains_includingDefault, r.mem_activeSheets_including s t,
    nodup_activeSheets indexed rfl ops _, pairwise_activeSheets indexed rfl ops _, ?_, ?_, ?_⟩
  · intro sheet
    simp only [Scope.contains_including, Bool.or_assoc]
  · intro sheet
    rw [Scope.contains_including, Scope.contains_including, Bool.or_comm]
  · intro sheet
    rw [Scope.contains_including, Bool.or_self]

end Owner

end Stylebook
