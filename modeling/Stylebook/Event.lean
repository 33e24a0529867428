import Stylebook.Location

/-!
# What happens to style sheets

Sheets are known by identifiers that are never used again. An event says that everything derived from the
sheets is out of date, that a refresh starts, or how the refresh of a sheet ended.
-/

set_option autoImplicit false

namespace Stylebook

/-- Identifies a loaded sheet. -/
structure SheetId where
  index : Nat
  deriving DecidableEq

/-- How a refresh ended. -/
inductive Outcome where
  /-- New content was read and stored. -/
  | refreshed
  /-- The source has not changed, so it was not read. -/
  | unchanged
  /-- The source could not be read or the text not be understood; the content was kept. -/
  | failed (reason : String)
  deriving DecidableEq

def Outcome.isSuccess : Outcome → Bool
  | .failed _ => false
  | _ => true

/-- Something that happened to the style sheets. -/
inductive Event where
  | invalidateAll
  /-- A refresh starts: of one sheet, or of every sheet that is polled. -/
  | willRefresh (sheet : Option SheetId)
  | didRefresh (sheet : SheetId) (location : Location) (outcome : Outcome)
  deriving DecidableEq

namespace Event

def name : Event → String
  | invalidateAll => "invalidate-all"
  | willRefresh _ => "will-refresh"
  | didRefresh _ _ outcome =>
    if outcome.isSuccess then "did-refresh-success" else "did-refresh-failure"

def text (e : Event) : String :=
  match e with
  | didRefresh _ location _ => e.name ++ " " ++ location.text
  | _ => e.name

end Event

end Stylebook
