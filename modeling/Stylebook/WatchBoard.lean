import Stylebook.Event
import Stylebook.Text.Quoted

/-!
# Watches on sources

A board of watches, each on a location for the sake of a sheet. The board may be choosy and accept only
some locations. Reporting a change of a location names the sheets that have a watch on it. Watches have
numbers, and no number is used again.
-/

set_option autoImplicit false

namespace Stylebook

/-- A watch on a location. -/
structure Watch where
  number : Nat
  location : Location
  sheet : SheetId
  deriving DecidableEq

/-- Watches on locations. -/
structure WatchBoard where
  /-- The locations that may be watched; all of them if there is no such list. -/
  only : Option (List Location)
  watches : List Watch
  /-- The number of the next watch. -/
  next : Nat
  deriving DecidableEq

namespace WatchBoard

def empty (only : Option (List Location)) : WatchBoard := ⟨only, [], 1⟩

def accepts (b : WatchBoard) (location : Location) : Bool :=
  match b.only with
  | some locations => locations.contains location
  | none => true

/-- Puts a watch on a location, if it may be watched, and answers its number. -/
def watch? (b : WatchBoard) (location : Location) (sheet : SheetId) : Option (Nat × WatchBoard) :=
  if b.accepts location then
    some (b.next, { b with watches := b.watches ++ [⟨b.next, location, sheet⟩], next := b.next + 1 })
  else none

def release (b : WatchBoard) (number : Nat) : WatchBoard :=
  { b with watches := b.watches.filter (·.number ≠ number) }

/-- The sheets that have a watch on a location. -/
def watching (b : WatchBoard) (location : Location) : List SheetId :=
  (b.watches.filter (·.location = location)).map (·.sheet)

def describe (b : WatchBoard) : String :=
  let only := match b.only with
    | none => "None"
    | some locations =>
      "Some([" ++ String.intercalate ", "
        (locations.map fun l => "SourceUrl(" ++ Text.quoted l.text ++ ")") ++ "])"
  "ManualMonitor \x7b watched: " ++ toString b.watches.length ++ ", only: " ++ only ++ " \x7d"

theorem mem_release {b : WatchBoard} {number : Nat} {w : Watch} :
    w ∈ (b.release number).watches ↔ w ∈ b.watches ∧ w.number ≠ number := by
  simp [release]

/-- A watch that is put on has the next number, and the board has it besides the watches that it had. -/
theorem watch?_eq_some {b b' : WatchBoard} {location : Location} {sheet : SheetId} {number : Nat}
    (h : b.watch? location sheet = some (number, b')) :
    number = b.next ∧
      b' = { b with watches := b.watches ++ [⟨b.next, location, sheet⟩], next := b.next + 1 } := by
  unfold watch? at h
  split at h
  · cases h
    exact ⟨rfl, rfl⟩
  · cases h

end WatchBoard

end Stylebook
