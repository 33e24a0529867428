import Stylebook.Location
import Stylebook.Revision

/-!
# Sources of style sheets

A source finds, reads and dates style sheets. Every question may change the source (it may count, and it
may be asked while someone else writes to it), so each answers the source as it is afterwards.
-/

set_option autoImplicit false

namespace Stylebook

/-- Kinds of failures to read. -/
inductive ReadErrorKind where
  | notFound
  | connectionRefused
  | unsupported
  | invalidData
  | isDirectory
  | notDirectory
  | invalidInput
  | other
  deriving DecidableEq

def ReadErrorKind.name : ReadErrorKind → String
  | .notFound => "NotFound"
  | .connectionRefused => "ConnectionRefused"
  | .unsupported => "Unsupported"
  | .invalidData => "InvalidData"
  | .isDirectory => "IsADirectory"
  | .notDirectory => "NotADirectory"
  | .invalidInput => "InvalidInput"
  | .other => "Other"

/-- Why a source could not be read. -/
structure ReadError where
  kind : ReadErrorKind
  message : String
  deriving DecidableEq

/-- A place that style sheets are read from. -/
class Source (σ : Type) where
  /-- The location of a style sheet that comes with the application. -/
  resolveBundle : σ → String → Option Location × σ
  isPresent : σ → Location → Bool × σ
  read : σ → Location → Except ReadError String × σ
  /-- The revision of what is at a location; none when it is not known. -/
  modified : σ → Location → Option Revision × σ

end Stylebook
