/-!
# Versions of a source

A revision marks one version of a source. Revisions are only ever compared for equality.
-/

set_option autoImplicit false

namespace Stylebook

/-- A mark of one version of a source. -/
inductive Revision where
  /-- The time of the last change, in seconds. -/
  | timestamp (seconds : Nat)
  /-- A tag that the source gave, quotes included. -/
  | etag (tag : String)
  /-- A date that the source gave, as written. -/
  | lastModified (date : String)
  deriving DecidableEq

def Revision.text : Revision → String
  | .timestamp seconds => "timestamp " ++ toString seconds
  | .etag tag => "etag " ++ tag
  | .lastModified date => "last-modified " ++ date

end Stylebook
