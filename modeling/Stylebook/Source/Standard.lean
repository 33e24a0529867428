import Stylebook.Source.Disk

/-!
# Files and the web

The standard source reads remote locations from the web and every other location from a file system. The
web of this library has no connection: it refuses locations that are not remote, and cannot reach those
that are.
-/

set_option autoImplicit false

namespace Stylebook

/-- The web without a connection. -/
structure Web where
  deriving DecidableEq

instance : Source Web where
  resolveBundle w _ := (none, w)
  isPresent w _ := (false, w)
  read w location :=
    (if location.isRemote then .error ⟨.other, location.text ++ ": no connection"⟩
      else .error ⟨.unsupported, "not an http(s) location: " ++ location.text⟩, w)
  modified w _ := (none, w)

def Web.describe (_ : Web) : String :=
  "HttpSource \x7b .. \x7d"

/-- Files and the web behind one source. -/
structure StandardSource where
  disk : Disk
  web : Web

namespace StandardSource

/-- Asks the web about remote locations and the file system about all others. -/
def route {β : Type} (s : StandardSource) (location : Location) (ofWeb : Web → β × Web)
    (ofDisk : Disk → β × Disk) : β × StandardSource :=
  if location.isRemote then
    let (answer, web) := ofWeb s.web
    (answer, { s with web := web })
  else
    let (answer, disk) := ofDisk s.disk
    (answer, { s with disk := disk })

instance : Source StandardSource where
  resolveBundle s name :=
    let (answer, disk) := Source.resolveBundle s.disk name
    (answer, { s with disk := disk })
  isPresent s location :=
    s.route location (Source.isPresent · location) (Source.isPresent · location)
  read s location := s.route location (Source.read · location) (Source.read · location)
  modified s location := s.route location (Source.modified · location) (Source.modified · location)

end StandardSource

end Stylebook
