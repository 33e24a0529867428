import Stylebook.Source.Basic
import Stylebook.Table

/-!
# Style sheets in memory

A table of files that counts its writes. Each write advances a clock, and the revision of a file is the
clock at its last write. A file can be made unavailable: it is still there, but it has no revision and
cannot be read. Attempts to read are counted, failed ones too.
-/

set_option autoImplicit false

namespace Stylebook

/-- A file in memory. -/
structure MemoryFile where
  text : String
  /-- The clock at the last write. -/
  revision : Nat
  reads : Nat
  unavailable : Bool
  deriving DecidableEq

/-- Files in memory. -/
structure MemoryFiles where
  files : Table Location MemoryFile
  /-- Locations by the name under which they come with the application. -/
  bundle : Table String Location
  clock : Nat
  /-- Whether revisions are tags instead of times. -/
  etags : Bool
  deriving DecidableEq

namespace MemoryFiles

def empty : MemoryFiles := ⟨.empty, .empty, 0, false⟩

/-- Creates a file or replaces its text. -/
def write (m : MemoryFiles) (location : Location) (text : String) : MemoryFiles :=
  let revision := m.clock + 1
  let file := match m.files.get? location with
    | some file => { file with text := text, revision := revision }
    | none => ⟨text, revision, 0, false⟩
  { m with files := m.files.insert location file, clock := revision }

/-- Changes a file that is there. -/
def update (m : MemoryFiles) (location : Location) (f : MemoryFile → MemoryFile) : MemoryFiles :=
  match m.files.get? location with
  | some file => { m with files := m.files.insert location (f file) }
  | none => m

/-- Advances the revision of a file without changing its text. The clock advances even if there is no
such file. -/
def touch (m : MemoryFiles) (location : Location) : MemoryFiles :=
  let revision := m.clock + 1
  { m with clock := revision }.update location fun file => { file with revision := revision }

/-- Makes a file unavailable, or available again. -/
def setUnavailable (m : MemoryFiles) (location : Location) (flag : Bool) : MemoryFiles :=
  m.update location fun file => { file with unavailable := flag }

def remove (m : MemoryFiles) (location : Location) : MemoryFiles :=
  { m with files := m.files.erase location }

/-- How often a file was read; zero if there is none. -/
def readCount (m : MemoryFiles) (location : Location) : Nat :=
  match m.files.get? location with
  | some file => file.reads
  | none => 0

/-- How a reading of the clock is shown as a revision. -/
def stamp (m : MemoryFiles) (reading : Nat) : Revision :=
  if m.etags then .etag ("\"r" ++ toString reading ++ "\"") else .timestamp reading

def revision? (m : MemoryFiles) (location : Location) : Option Revision :=
  match m.files.get? location with
  | some file => if file.unavailable then none else some (m.stamp file.revision)
  | none => none

/-- What reading a file answers. -/
def contents (m : MemoryFiles) (location : Location) : Except ReadError String :=
  match m.files.get? location with
  | some file =>
    if file.unavailable then .error ⟨.connectionRefused, location.text ++ " unavailable"⟩
    else .ok file.text
  | none => .error ⟨.notFound, location.text⟩

/-- One more attempt to read a file. -/
def countRead (m : MemoryFiles) (location : Location) : MemoryFiles :=
  m.update location fun file => { file with reads := file.reads + 1 }

instance : Source MemoryFiles where
  resolveBundle m name := (m.bundle.get? name, m)
  isPresent m location := (m.files.contains location, m)
  read m location := (m.contents location, m.countRead location)
  modified m location := (m.revision? location, m)

end MemoryFiles

end Stylebook
