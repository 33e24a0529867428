import Stylebook.Sheet.Basic

/-!
# Scopes

A scope selects sheets by name or by group; whether a sheet is active does not matter to it. Scopes of
names and of groups may take in the default group too, and scopes can be united.

The names of a scope are a set: they are kept in increasing order and without repetition.
-/

set_option autoImplicit false

namespace Stylebook

/-- A selection of sheets. -/
inductive Scope where
  | all
  /-- Sheets without a group. -/
  | defaultGroup
  | named (names : List String) (withDefault : Bool)
  | grouped (groups : List String) (withDefault : Bool)
  | union (members : List Scope)

/-- Where no scope is given, every sheet is meant. -/
instance : Inhabited Scope := ⟨.all⟩

namespace Scope

/-- Puts a name into an increasing list of names. -/
def insertName (name : String) : List String → List String
  | [] => [name]
  | n :: ns =>
    if name = n then n :: ns
    else if name < n then name :: n :: ns
    else n :: insertName name ns

/-- The increasing list of the given names. -/
def nameSet (names : List String) : List String :=
  names.foldr insertName []

/-- Sheets with one of the names. -/
def ofNames (names : List String) : Scope :=
  .named (nameSet names) false

/-- Sheets in one of the groups. -/
def ofGroups (groups : List String) : Scope :=
  .grouped (nameSet groups) false

/-- The scope with the default group taken in. -/
def includingDefault : Scope → Scope
  | .named names _ => .named names true
  | .grouped groups _ => .grouped groups true
  | .union members => .union (members ++ [.defaultGroup])
  | s => s

/-- The scope of the sheets in `s` or in `t`. -/
def including (s t : Scope) : Scope :=
  match s with
  | .union members => .union (members ++ [t])
  | s => .union [s, t]

mutual

def contains (s : Scope) (sheet : Sheet) : Bool :=
  match s with
  | .all => true
  | .defaultGroup => sheet.group.isNone
  | .named names withDefault => names.contains sheet.name || (withDefault && sheet.group.isNone)
  | .grouped groups withDefault =>
    (match sheet.group with
      | some group => groups.contains group
      | none => false) || (withDefault && sheet.group.isNone)
  | .union members => anyContains members sheet

/-- Whether a sheet is in one of the scopes. -/
def anyContains (members : List Scope) (sheet : Sheet) : Bool :=
  match members with
  | [] => false
  | s :: rest => contains s sheet || anyContains rest sheet

end

mutual

/-- Whether two scopes are built alike. -/
def same (s t : Scope) : Bool :=
  match s, t with
  | .all, .all => true
  | .defaultGroup, .defaultGroup => true
  | .named n d, .named n' d' => n == n' && d == d'
  | .grouped g d, .grouped g' d' => g == g' && d == d'
  | .union m, .union m' => sameAll m m'
  | _, _ => false

/-- Whether two rows of scopes are built alike, member by member. -/
def sameAll (ss ts : List Scope) : Bool :=
  match ss, ts with
  | [], [] => true
  | s :: ss, t :: ts => same s t && sameAll ss ts
  | _, _ => false

end

instance : BEq Scope := ⟨same⟩

end Scope

end Stylebook
