import Stylebook.Proofs.Value.Steps
import Stylebook.Value.Dimension

/-!
# Rows of members

The arguments of a function and the numbers of a figure are rows: a first member, and others that follow, each behind a
separator (`Row`, `Further`). A separator is a comma. In some rows it may be left out, and nothing else stands between
two members. So there is no comma at either end of a row, and no second one between neighbours.

`Reading.items` is the loop for rows in which commas may be left out. It goes up to a closing parenthesis or the end,
and takes a row and nothing else (`items_eq_ok_iff`).
-/

set_option autoImplicit false

namespace Stylebook

/-! ## Rows -/

/-- What may stand between two members of a row. -/
inductive Separator (optional : Bool) : List Word → Prop
  | comma {m : Word} (comma : m.kind = .comma) : Separator optional [m]
  | nothing (left : optional = true) : Separator optional []

section Rows

variable {β : Type} (optional : Bool) (member : Word → β → Prop)

/-- Members that follow others. -/
inductive Further : List β → List Word → Prop
  | nil : Further [] []
  | cons {s : List Word} {w : Word} {x : β} {xs : List β} {ws : List Word} (separator : Separator optional s)
      (first : member w x) (others : Further xs ws) : Further (x :: xs) (s ++ w :: ws)

/-- Members in a row. -/
inductive Row : List β → List Word → Prop
  | nil : Row [] []
  | cons {w : Word} {x : β} {xs : List β} {ws : List Word} (first : member w x)
      (others : Further optional member xs ws) : Row (x :: xs) (w :: ws)

end Rows

section Relating

variable {β γ : Type} {optional : Bool} {member : Word → β → Prop} {other : Word → γ → Prop} {relation : β → γ → Prop}
  {xs : List β} {ws : List Word}

/-- If each member of one kind is one of another kind, a row of the one is a row of the other. -/
theorem Further.relate (further : Further optional member xs ws)
    (each : ∀ w ∈ ws, ∀ x, member w x → ∃ y, relation x y ∧ other w y) :
    ∃ ys, List.Forall₂ relation xs ys ∧ Further optional other ys ws := by
  induction further with
  | nil => exact ⟨[], .nil, .nil⟩
  | @cons s w x xs ws separator first others ih =>
    obtain ⟨y, related, first⟩ := each w (by simp) x first
    obtain ⟨ys, all, others⟩ := ih fun v hv => each v (by simp [hv])
    exact ⟨y :: ys, .cons related all, .cons separator first others⟩

theorem Row.relate (row : Row optional member xs ws)
    (each : ∀ w ∈ ws, ∀ x, member w x → ∃ y, relation x y ∧ other w y) :
    ∃ ys, List.Forall₂ relation xs ys ∧ Row optional other ys ws := by
  cases row with
  | nil => exact ⟨[], .nil, .nil⟩
  | cons first others =>
    obtain ⟨y, related, first⟩ := each _ List.mem_cons_self _ first
    obtain ⟨ys, all, others⟩ := others.relate fun v hv => each v (List.mem_cons_of_mem _ hv)
    exact ⟨y :: ys, .cons related all, .cons first others⟩

end Relating

section Everywhere

variable {β : Type} {optional : Bool} {member : Word → β → Prop} {P : Word → Prop} {xs : List β} {ws : List Word}
  (commas : ∀ w : Word, w.kind = .comma → P w) (members : ∀ w x, member w x → P w)
include commas members

/-- What holds of commas and of members holds of all words of a row. -/
theorem Further.forall_mem (further : Further optional member xs ws) : ∀ w ∈ ws, P w := by
  induction further with
  | nil => simp
  | cons separator first _ ih =>
    rw [List.forall_mem_append, List.forall_mem_cons]
    refine ⟨?_, members _ _ first, ih⟩
    cases separator with
    | comma comma => exact List.forall_mem_singleton.mpr (commas _ comma)
    | nothing => simp

theorem Row.forall_mem (row : Row optional member xs ws) : ∀ w ∈ ws, P w := by
  cases row with
  | nil => simp
  | cons first others => exact List.forall_mem_cons.mpr ⟨members _ _ first, others.forall_mem commas members⟩

end Everywhere

/-! ## Members by their value -/

/-- Values of tokens that do not depend on their place, and that no mark of a row has. -/
structure Readable {α : Type} (value? : Token → Option α) : Prop where
  word (t : Token) : value? t.word.token = value? t
  plain {t : Token} {x : α} (value : value? t = some x) : t.kind ≠ .parenClose ∧ t.kind ≠ .comma

theorem readable_number {α : Type} [Scalar α] : Readable (Token.number? : Token → Option α) where
  word _ := rfl
  plain {t} _ value := by
    constructor <;>
    · intro kind
      simp [Token.number?, kind] at value

theorem readable_looseNumber {α : Type} [Scalar α] : Readable (Token.looseNumber? : Token → Option α) where
  word _ := rfl
  plain {t} _ value := by
    constructor <;>
    · intro kind
      simp [Token.looseNumber?, Token.number?, kind] at value

/-- The word has the value. -/
def Member {α : Type} (value? : Token → Option α) (w : Word) (x : α) : Prop :=
  value? w.token = some x

/-! ## Reading rows -/

namespace Reading

variable {α : Type} {value? : Token → Option α} {xs : List α} {front rest : List Token}

/-- Nothing is left, or a parenthesis closes. -/
def Ends (rest : List Token) : Prop :=
  ∀ t ∈ rest.head?, t.kind = .parenClose

theorem ends_nil : Ends [] := by
  simp [Ends]

theorem ends_cons {z : Token} : Ends (z :: rest) ↔ z.kind = .parenClose := by
  simp [Ends]

theorem items_of_ends (ends : Ends rest) (first : Bool) : items value? first rest = (.ok [], rest) := by
  cases rest with
  | nil => rw [items]
  | cons t rest => simp [items.eq_def, ends_cons.mp ends]

theorem items_comma {m t : Token} {x : α} (comma : m.kind = .comma) (value : value? t = some x) (ts : List Token) :
    items value? false (m :: t :: ts) = consTo x (items value? false ts) := by
  rw [items.eq_def]
  simp [comma, value]

variable (readable : Readable value?)
include readable

theorem items_cons {t : Token} {x : α} (value : value? t = some x) (first : Bool) (ts : List Token) :
    items value? first (t :: ts) = consTo x (items value? false ts) := by
  obtain ⟨close, comma⟩ := readable.plain value
  rw [items.eq_def]
  simp [close, comma, value]

theorem items_of_further (ends : Ends rest) {ws : List Word} (further : Further true (Member value?) xs ws)
    (words : front.map Token.word = ws) : items value? false (front ++ rest) = (.ok xs, rest) := by
  induction further generalizing front with
  | nil =>
    obtain rfl := List.map_eq_nil_iff.mp words
    exact items_of_ends ends false
  | @cons s w x xs ws separator first others ih =>
    cases separator with
    | comma comma =>
      simp only [List.singleton_append, List.map_eq_cons_iff] at words
      obtain ⟨m, _, rfl, rfl, t, ts, rfl, rfl, words⟩ := words
      rw [Member, readable.word] at first
      simp only [List.cons_append]
      rw [items_comma comma first, ih words]
      rfl
    | nothing =>
      simp only [List.nil_append, List.map_eq_cons_iff] at words
      obtain ⟨t, ts, rfl, rfl, words⟩ := words
      rw [Member, readable.word] at first
      rw [List.cons_append, items_cons readable first, ih words]
      rfl

theorem items_of_row (ends : Ends rest) (row : Row true (Member value?) xs (front.map Token.word)) :
    items value? true (front ++ rest) = (.ok xs, rest) := by
  generalize words : front.map Token.word = ws at row
  cases row with
  | nil =>
    obtain rfl := List.map_eq_nil_iff.mp words
    exact items_of_ends ends true
  | cons first others =>
    obtain ⟨t, ts, rfl, rfl, behind⟩ := List.map_eq_cons_iff.mp words
    rw [Member, readable.word] at first
    rw [List.cons_append, items_cons readable first, items_of_further readable ends others behind]
    rfl

theorem further_of_items {first : Bool} {ts : List Token} (later : first = false)
    (h : items value? first ts = (.ok xs, rest)) :
    ∃ front, ts = front ++ rest ∧ Ends rest ∧ Further true (Member value?) xs (front.map Token.word) := by
  fun_induction items value? first ts generalizing xs rest with
  | case1 =>
    cases h
    exact ⟨[], rfl, ends_nil, .nil⟩
  | case2 first t ts close =>
    cases h
    exact ⟨[], rfl, ends_cons.mpr close, .nil⟩
  | case3 => cases h
  | case4 first m _ here u ts n value ih =>
    obtain ⟨ys, taken, rfl⟩ := consTo_eq_ok h
    obtain ⟨front, rfl, ends, others⟩ := ih rfl taken
    exact ⟨m :: u :: front, rfl, ends, .cons (.comma here.2) ((readable.word u).trans value) others⟩
  | case5 => cases h
  | case6 first t ts _ _ n value ih =>
    obtain ⟨ys, taken, rfl⟩ := consTo_eq_ok h
    obtain ⟨front, rfl, ends, others⟩ := ih rfl taken
    exact ⟨t :: front, rfl, ends, .cons (.nothing rfl) ((readable.word t).trans value) others⟩
  | case7 => cases h

theorem row_of_items {ts : List Token} (h : items value? true ts = (.ok xs, rest)) :
    ∃ front, ts = front ++ rest ∧ Ends rest ∧ Row true (Member value?) xs (front.map Token.word) := by
  -- What has been taken so far is nothing, so that a comma is no separator yet.
  by_cases ends : Ends ts
  · rw [items_of_ends ends] at h
    cases h
    exact ⟨[], rfl, ends, .nil⟩
  · cases ts with
    | nil => exact absurd ends_nil ends
    | cons t ts =>
      cases value : value? t with
      | none =>
        rw [items.eq_def] at h
        simp [mt ends_cons.mpr ends, value] at h
      | some x =>
        rw [items_cons readable value] at h
        obtain ⟨ys, taken, rfl⟩ := consTo_eq_ok h
        obtain ⟨front, rfl, ends, others⟩ := further_of_items readable rfl taken
        exact ⟨t :: front, rfl, ends, .cons ((readable.word t).trans value) others⟩

/-- What is taken is a row, up to where it ends. -/
theorem items_eq_ok_iff {ts : List Token} :
    items value? true ts = (.ok xs, rest) ↔
      ∃ front, ts = front ++ rest ∧ Ends rest ∧ Row true (Member value?) xs (front.map Token.word) := by
  constructor
  · exact row_of_items readable
  · rintro ⟨front, rfl, ends, row⟩
    exact items_of_row readable ends row

end Reading

end Stylebook
