import Stylebook.Cascade

/-!
# The declaration that holds

The cascade looks for a declaration from the end: from the newest sheet to the oldest, in each sheet from the last
rule to the first, in each rule from the last declaration to the first, and it stops at the first one that it finds.
`Cascade.declarationsOf` is the same said forwards, without any order of search: every declaration of the property
under the selector, sheet after sheet and rule after rule, as they were written.

Of those, the last one holds (`Cascade.declared?_eq`). Each of the three levels has its own statement: what the
search finds at one level is the last entry of what that level contributes to the row.
-/

set_option autoImplicit false

namespace Stylebook

/-! ## Declarations in the order in which they were written -/

/-- The declarations of a property in the rule. -/
def Rule.declarationsOf (r : Rule) (property : String) : List Declaration :=
  r.declarations.filter fun d => foldPropertyName d.property = foldPropertyName property

/-- The declarations of a property under a selector in the sheet, rule after rule. -/
def Sheet.declarationsOf (s : Sheet) (selector : Selector) (property : String) : List Declaration :=
  (s.content.rules.filter fun r => selector ∈ r.selectors).flatMap fun r => r.declarationsOf property

/-- The declarations of a property under a selector in the active sheets of a scope, the oldest sheet first. -/
def Cascade.declarationsOf {σ α : Type} (c : Cascade σ α) (selector : Selector) (property : String)
    (scope : Scope) : List Declaration :=
  ((c.sheets.order.filterMap c.sheets.get?).filter fun s => s.active ∧ scope.contains s).flatMap fun s =>
    s.declarationsOf selector property

/-! ## One level after the other -/

/-- A rule is searched from its last declaration. -/
theorem Rule.declaration?_eq (r : Rule) (property : String) :
    r.declaration? property = (r.declarationsOf property).getLast? := by
  have same : (fun d : Declaration => sameProperty d.property property) =
      fun d => decide (foldPropertyName d.property = foldPropertyName property) := by
    funext d
    rw [Bool.eq_iff_iff]
    simp [sameProperty]
  unfold declaration? declarationsOf
  rw [← List.head?_filter, List.filter_reverse, List.head?_reverse, same]

/-- The rules of a sheet that have a selector are searched from the last one. -/
theorem Sheet.findSome?_rules (s : Sheet) (selector : Selector) (property : String) :
    (s.content.rules.reverse.filter (·.hasSelector selector)).findSome? (·.declaration? property) =
      (s.declarationsOf selector property).getLast? := by
  have has : (fun r : Rule => r.hasSelector selector) = fun r => decide (selector ∈ r.selectors) := by
    funext r
    rw [Bool.eq_iff_iff]
    simp [Rule.hasSelector]
  have found : (fun r : Rule => r.declaration? property) = fun r => (r.declarationsOf property).getLast? := by
    funext r
    apply Rule.declaration?_eq
  unfold declarationsOf
  rw [List.getLast?_flatMap, List.filter_reverse, has, found]

theorem findSome?_flatMap {α β γ : Type} (rules : α → List β) (f : β → Option γ) (sheets : List α) :
    (sheets.flatMap rules).findSome? f = sheets.findSome? fun s => (rules s).findSome? f := by
  induction sheets with
  | nil => rfl
  | cons s rest ih =>
    rw [List.flatMap_cons, List.findSome?_append, List.findSome?_cons, ih]
    cases (rules s).findSome? f <;> rfl

/-- Sheets are searched from the newest one, which is the last in the row of sheets. -/
theorem Cascade.declarationIn?_reverse (selector : Selector) (property : String) (sheets : List Sheet) :
    declarationIn? selector property sheets.reverse =
      (sheets.flatMap fun s => s.declarationsOf selector property).getLast? := by
  have found : (fun s : Sheet => (s.content.rules.reverse.filter (·.hasSelector selector)).findSome?
      (·.declaration? property)) = fun s => (s.declarationsOf selector property).getLast? := by
    funext s
    apply Sheet.findSome?_rules
  unfold declarationIn?
  rw [List.filter_flatMap, findSome?_flatMap, List.getLast?_flatMap, found]

/-- The active sheets of a scope come in the order in which they were loaded. -/
theorem Repository.activeSheets_eq {σ : Type} (r : Repository σ) (scope : Scope) :
    r.activeSheets scope = (r.order.filterMap r.get?).filter fun s => s.active ∧ scope.contains s := by
  have sheets : r.entries.map (·.2) = r.order.filterMap r.get? := by
    unfold entries
    rw [List.map_filterMap]
    congr 1
    funext id
    cases r.get? id <;> rfl
  unfold activeSheets
  rw [sheets]
  congr 1
  funext s
  rw [Bool.eq_iff_iff]
  simp

/-! ## The cascade -/

/-- **The last of all declarations holds**: what is declared for a property under a selector is the value of the last
declaration of the property under the selector, over the active sheets of the scope from the oldest to the newest.
Where the text of the selector cannot be understood, or there is no declaration, there is no value. -/
theorem Cascade.declared?_eq {σ α : Type} (c : Cascade σ α) (selector property : String) (scope : Scope) :
    c.declared? selector property scope = match Selector.parse selector with
      | .error _ => none
      | .ok s => (c.declarationsOf s property scope).getLast?.map (·.value) := by
  unfold declared?
  cases Selector.parse selector with
  | error e => rfl
  | ok s =>
    dsimp only
    rw [declarationIn?_reverse, Repository.activeSheets_eq]
    rfl

end Stylebook
