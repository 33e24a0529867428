import Stylebook.ParseError
import Stylebook.Source.Basic

/-!
# Why a style sheet cannot be loaded or refreshed
-/

set_option autoImplicit false

namespace Stylebook

/-- Why an operation on style sheets fails. -/
inductive StyleError where
  /-- There is nothing at the location, or under the name of the bundle. -/
  | notFound (place : String)
  | readFailed (location : Location) (cause : ReadError)
  | parseFailed (location : Location) (cause : ParseError)
  /-- The sheet is loaded, but it is not refreshed. -/
  | notRefreshable (location : Location)
  /-- No sheet has the identifier. -/
  | unknownSheet
  deriving DecidableEq

namespace StyleError

/-- The wording of a style error, without its cause. -/
def message : StyleError → String
  | notFound place => "stylesheet source not found: " ++ place
  | readFailed location _ => "failed to read stylesheet " ++ location.text
  | parseFailed location _ => "failed to parse stylesheet " ++ location.text
  | notRefreshable location => "stylesheet " ++ location.text ++ " is not refreshable"
  | unknownSheet => "unknown stylesheet id"

/-- The wording of the cause. -/
def cause? : StyleError → Option String
  | readFailed _ cause => some cause.message
  | parseFailed _ cause => some cause.message
  | _ => none

/-- The wording of a style error with its cause. -/
def describe (e : StyleError) : String :=
  match e.cause? with
  | some cause => e.message ++ ": " ++ cause
  | none => e.message

end StyleError

end Stylebook
