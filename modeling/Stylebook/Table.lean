/-!
# Tables

A table is a finite map that remembers the order in which its keys first came in. Storing under a key
that is there already replaces the value in place.
-/

set_option autoImplicit false

namespace Stylebook

/-- A finite map in insertion order. -/
structure Table (κ ν : Type) where
  entries : List (κ × ν)
  deriving Repr, DecidableEq

namespace Table

variable {κ ν : Type} [DecidableEq κ]

def empty : Table κ ν := ⟨[]⟩

instance : EmptyCollection (Table κ ν) := ⟨empty⟩

/-- The value stored under a key among the given entries. -/
def lookup (key : κ) : List (κ × ν) → Option ν
  | [] => none
  | (k, v) :: rest => if k = key then some v else lookup key rest

/-- The value stored under a key. -/
def get? (t : Table κ ν) (key : κ) : Option ν :=
  lookup key t.entries

def contains (t : Table κ ν) (key : κ) : Bool :=
  (t.get? key).isSome

/-- The entries with the value under a key replaced, or with a new entry at the end. -/
def put (key : κ) (value : ν) : List (κ × ν) → List (κ × ν)
  | [] => [(key, value)]
  | (k, v) :: rest => if k = key then (k, value) :: rest else (k, v) :: put key value rest

def insert (t : Table κ ν) (key : κ) (value : ν) : Table κ ν :=
  ⟨put key value t.entries⟩

def erase (t : Table κ ν) (key : κ) : Table κ ν :=
  ⟨t.entries.filter fun e => e.1 ≠ key⟩

/-- The table of a row of entries, where a later entry replaces an earlier one of the same key. -/
def ofList (entries : List (κ × ν)) : Table κ ν :=
  entries.foldl (fun t e => t.insert e.1 e.2) empty

/-- The keys, in the order in which they first came in. -/
def keys (t : Table κ ν) : List κ :=
  t.entries.map (·.1)

def size (t : Table κ ν) : Nat :=
  t.entries.length

theorem lookup_put (key k : κ) (value : ν) (entries : List (κ × ν)) :
    lookup k (put key value entries) = if key = k then some value else lookup k entries := by
  induction entries with
  | nil => rfl
  | cons e rest ih =>
    obtain ⟨k', v'⟩ := e
    by_cases h : k' = key
    · subst h
      by_cases hk : k' = k <;> simp [put, lookup, hk]
    · by_cases hk : k' = k
      · subst hk
        simp [put, lookup, h, Ne.symm h]
      · simp [put, lookup, h, hk, ih]

/-- After storing, the key has the new value and every other key has its old one. -/
@[simp] theorem get?_insert (t : Table κ ν) (key k : κ) (value : ν) :
    (t.insert key value).get? k = if key = k then some value else t.get? k :=
  lookup_put key k value t.entries

theorem lookup_filter_ne (key k : κ) (entries : List (κ × ν)) :
    lookup k (entries.filter fun e => e.1 ≠ key) = if key = k then none else lookup k entries := by
  induction entries with
  | nil => simp [lookup]
  | cons e rest ih =>
    obtain ⟨k', v'⟩ := e
    by_cases h : k' = key
    · subst h
      rw [List.filter_cons_of_neg (by simp), ih]
      by_cases hk : k' = k <;> simp [lookup, hk]
    · rw [List.filter_cons_of_pos (by simpa using h)]
      by_cases hk : k' = k
      · subst hk; simp [lookup, Ne.symm h]
      · simpa [lookup, hk] using ih

/-- After removing, the key has no value and every other key has its old one. -/
@[simp] theorem get?_erase (t : Table κ ν) (key k : κ) :
    (t.erase key).get? k = if key = k then none else t.get? k :=
  lookup_filter_ne key k t.entries

theorem mem_entries {t : Table κ ν} {key : κ} {value : ν} (h : t.get? key = some value) :
    (key, value) ∈ t.entries := by
  obtain ⟨entries⟩ := t
  unfold get? at h
  dsimp only at h ⊢
  induction entries with
  | nil => cases h
  | cons e rest ih =>
    obtain ⟨k, v⟩ := e
    unfold lookup at h
    split at h
    · rename_i same
      cases h
      exact same ▸ List.mem_cons_self
    · exact List.mem_cons_of_mem _ (ih h)

/-- A table without values has no entries. -/
theorem entries_eq_nil {t : Table κ ν} (none : ∀ key, t.get? key = none) : t.entries = [] := by
  obtain ⟨entries⟩ := t
  cases entries with
  | nil => rfl
  | cons e rest =>
    have found : lookup e.1 (e :: rest) = some e.2 := if_pos rfl
    exact absurd (found.symm.trans (none e.1)) (by simp)

@[simp] theorem get?_empty (k : κ) : (empty : Table κ ν).get? k = none := rfl

theorem get?_foldl_insert (entries : List (κ × ν)) (t : Table κ ν) (k : κ) :
    (entries.foldl (fun t e => t.insert e.1 e.2) t).get? k =
      ((entries.reverse.find? fun e => e.1 = k).map (·.2)).or (t.get? k) := by
  induction entries generalizing t with
  | nil => rfl
  | cons e entries ih =>
    rw [List.foldl_cons, ih, get?_insert, List.reverse_cons, List.find?_append]
    cases entries.reverse.find? fun e => e.1 = k with
    | some later => rfl
    | none => by_cases here : e.1 = k <;> simp [here]

/-- The last entry of a key is the one that the table has. -/
theorem get?_ofList (entries : List (κ × ν)) (k : κ) :
    (ofList entries).get? k = (entries.reverse.find? fun e => e.1 = k).map (·.2) := by
  rw [ofList, get?_foldl_insert, get?_empty, Option.or_none]

/-- In a table of a row with different keys, each key has its value. -/
theorem get?_ofList_of_nodup {entries : List (κ × ν)} (differ : (entries.map (·.1)).Nodup) {key : κ} {value : ν}
    (mem : (key, value) ∈ entries) : (ofList entries).get? key = some value := by
  obtain ⟨front, back, rfl⟩ := List.append_of_mem mem
  rw [List.map_append, List.map_cons, List.nodup_append, List.nodup_cons] at differ
  have behind : (back.reverse.find? fun e => e.1 = key) = none := by
    rw [List.find?_eq_none]
    intro e he
    have here := List.mem_map_of_mem (f := (·.1)) (List.mem_reverse.mp he)
    have other : e.1 ≠ key := ne_of_mem_of_not_mem here differ.2.1.1
    simpa using other
  rw [get?_ofList, List.reverse_append, List.reverse_cons, List.append_assoc, List.find?_append, behind]
  simp

end Table

end Stylebook
