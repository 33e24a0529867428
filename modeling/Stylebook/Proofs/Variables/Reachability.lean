import Stylebook.Proofs.Variables.Segments

/-!
# What expansion depends on

Expansion of a text looks up the names that the text refers to, then those that their values refer to, and so on.
These are the names that are `Reachable` from the text; the stack of pending names and the limit of depth may stop
expansion earlier, but neither brings another name in. So two sets of variables that agree on the reachable names
expand the text alike (`Variables.expand_eq_of_reachable`), be there circles among them or rows that are too long.

Two cases of this are results of their own. Setting a variable that is not reachable makes no difference to the text
(`Variables.expand_set`), nor does a further sheet that defines nothing reachable (`Variables.expand_append`).

Reachability itself is no obstacle to comparing two sets of variables: where they agree on what is reachable in one of
them, the same names are reachable in the other (`reachable_iff`).
-/

set_option autoImplicit false

namespace Stylebook

open Reference

/-- The names that a text refers to are reachable from it, and so are those that the value of a reachable name refers
to, where quotes and blanks at the ends of the value are left out. -/
inductive Reachable (lookup : List Char → Option (List Char)) (raw : List Char) : List Char → Prop where
  | mentioned {name : List Char} (here : name ∈ names raw) : Reachable lookup raw name
  | through {name value next : List Char} (reached : Reachable lookup raw name) (found : lookup name = some value)
      (mentions : next ∈ names (Text.trimQuotes value)) : Reachable lookup raw next

variable {lookup lookup' : List Char → Option (List Char)} {raw : List Char}

namespace Reachable

/-- What is reachable from the value of a name that the text refers to is reachable from the text. -/
theorem of_value {name value next : List Char} (here : name ∈ names raw) (found : lookup name = some value)
    (reached : Reachable lookup (Text.trimQuotes value) next) : Reachable lookup raw next := by
  induction reached with
  | mentioned mentions => exact .through (.mentioned here) found mentions
  | through _ found' mentions ih => exact .through ih found' mentions

theorem congr (same : ∀ name, Reachable lookup raw name → lookup' name = lookup name) {name : List Char}
    (reached : Reachable lookup raw name) : Reachable lookup' raw name := by
  induction reached with
  | mentioned here => exact .mentioned here
  | through before found mentions ih => exact .through ih ((same _ before).trans found) mentions

/-- On the way to a name that is reachable in the second set of variables, the first one has the same values. -/
theorem of_congr (same : ∀ name, Reachable lookup raw name → lookup' name = lookup name) {name : List Char}
    (reached : Reachable lookup' raw name) : Reachable lookup raw name := by
  induction reached with
  | mentioned here => exact .mentioned here
  | through _ found mentions ih => exact .through ih ((same _ ih).symm.trans found) mentions

end Reachable

theorem reachable_iff (same : ∀ name, Reachable lookup raw name → lookup' name = lookup name) (name : List Char) :
    Reachable lookup' raw name ↔ Reachable lookup raw name :=
  ⟨.of_congr same, .congr same⟩

/-- At every depth, and whatever is pending, expansion depends on the reachable names alone. The induction is on the
depth; both expansions go down to the same values, with the same names pending. -/
theorem expandAt_congr (depth : Nat) (pending : List (List Char)) (raw : List Char)
    (same : ∀ name, Reachable lookup raw name → lookup' name = lookup name) :
    expandAt lookup' depth pending raw = expandAt lookup depth pending raw := by
  induction depth generalizing pending raw with
  | zero => rfl
  | succ depth ih =>
    refine replaceReferences_congr _ fun name here => ?_
    rw [same name (.mentioned here)]
    cases found : lookup name with
    | none => rfl
    | some value =>
      have deeper := ih (name :: pending) (Text.trimQuotes value) fun next reached =>
        same next (.of_value here found reached)
      simp only [Option.map_some, deeper]

namespace Variables

variable {v : Variables} {sheets : List Sheet} {raw : String}

theorem expand_congr {v' : Variables} {sheets' : List Sheet}
    (same : ∀ name, Reachable (v.lookupChars sheets) raw.toList name →
      v'.lookupChars sheets' name = v.lookupChars sheets name) :
    v'.expand sheets' raw = v.expand sheets raw := by
  rw [expand, expand, expandAt_congr maxDepth [] raw.toList same]

/-! ## Variables that do not matter -/

/-- To set a variable that is not reachable makes no difference. -/
theorem expand_set {name : String} (value : String)
    (apart : ¬ Reachable (v.lookupChars sheets) raw.toList (bareName name).toList) :
    (v.set name value).expand sheets raw = v.expand sheets raw := by
  refine expand_congr fun n reached => ?_
  have other : bareName name ≠ String.ofList n := by
    intro same
    rw [same, String.toList_ofList] at apart
    exact apart reached
  have override : (v.set name value).overrides.get? (String.ofList n) = v.overrides.get? (String.ofList n) :=
    (Table.get?_insert ..).trans (if_neg other)
  simp only [lookupChars, lookup, override]

/-- A further sheet makes no difference if it defines nothing that is reachable. -/
theorem expand_append {s : Sheet}
    (apart : ∀ name, Reachable (v.lookupChars sheets) raw.toList name → s.valueOf? (String.ofList name) = none) :
    v.expand (sheets ++ [s]) raw = v.expand sheets raw := by
  refine expand_congr fun name reached => ?_
  simp only [lookupChars, lookup, List.reverse_append, List.reverse_singleton, List.singleton_append,
    List.findSome?_cons, apart name reached]

/-- **Expansion depends on the reachable variables alone**: with any other values set, and any other sheets, a text is
expanded alike if the look-up of every name that is reachable from the text has the same result. -/
theorem expand_eq_of_reachable (v v' : Variables) (sheets sheets' : List Sheet) (raw : String)
    (same : ∀ name, Reachable (v.lookupChars sheets) raw.toList name →
      v'.lookup sheets' (String.ofList name) = v.lookup sheets (String.ofList name)) :
    v'.expand sheets' raw = v.expand sheets raw := by
  refine expand_congr fun name reached => ?_
  rw [lookupChars, lookupChars, same name reached]

/-- Two variables that refer to each other, once set and once from a sheet, beside one that has nothing to do with
them. -/
theorem expand_eq_of_reachable_circle :
    let v : Variables := ⟨.ofList [("a", "x @b"), ("b", "'y --a'"), ("other", "@a")]⟩
    let v' : Variables := ⟨.ofList [("b", "'y --a'")]⟩
    let sheets' : List Sheet := [.of ⟨"mem://a.css"⟩ ((Content.empty.define "a" "x @b").define "other" "2")]
    v'.expand sheets' "1 @a" = v.expand [] "1 @a" := by
  intro v v' sheets'
  have inside : ∀ name, Reachable (v.lookupChars []) "1 @a".toList name → name = ['a'] ∨ name = ['b'] := by
    intro name reached
    induction reached with
    | mentioned here =>
      have only : names "1 @a".toList = [['a']] := by decide +kernel
      rw [only] at here
      exact .inl (List.mem_singleton.mp here)
    | through _ found mentions ih =>
      rcases ih with rfl | rfl
      · have value : v.lookupChars [] ['a'] = some "x @b".toList := by decide +kernel
        have only : names (Text.trimQuotes "x @b".toList) = [['b']] := by decide +kernel
        cases value.symm.trans found
        rw [only] at mentions
        exact .inr (List.mem_singleton.mp mentions)
      · have value : v.lookupChars [] ['b'] = some "'y --a'".toList := by decide +kernel
        have only : names (Text.trimQuotes "'y --a'".toList) = [['a']] := by decide +kernel
        cases value.symm.trans found
        rw [only] at mentions
        exact .inl (List.mem_singleton.mp mentions)
  refine expand_eq_of_reachable v v' [] sheets' "1 @a" fun name reached => ?_
  rcases inside name reached with rfl | rfl <;> decide +kernel

end Variables

end Stylebook
