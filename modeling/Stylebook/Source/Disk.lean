import Stylebook.Source.Basic
import Stylebook.Table
import Stylebook.Text.Split

/-!
# Style sheets in a file system

A tree of files under a root, where folders are the leading parts of the paths of files. Only local
locations have a path; a relative path starts in a folder that holds nothing. What is not text cannot be
read as text.

A name of the bundle is a path below the bundle root, or a path of its own if it starts at the root of
the tree.
-/

set_option autoImplicit false

namespace Stylebook

/-- What a file holds. -/
inductive FileData where
  | text (s : String)
  /-- Bytes that are no text. -/
  | binary
  deriving DecidableEq

/-- What is at a path. -/
inductive Entry where
  | file (data : FileData)
  | folder
  deriving DecidableEq

/-- A tree of files. -/
structure Disk where
  /-- The files by the components of their paths. -/
  files : Table (List String) FileData
  /-- Folders that are there even if they are empty. -/
  folders : List (List String)
  /-- Where the names of the bundle start. -/
  bundleRoot : Option String

namespace Disk

def components (path : String) : List String :=
  (Text.splitWhere (· == '/') path.toList).map String.ofList

def isAbsolute (path : String) : Bool :=
  path.toList.head? == some '/'

/-- What is at the end of a row of components without dots. -/
def entry? (d : Disk) (place : List String) : Option Entry :=
  match d.files.get? place with
  | some data => some (.file data)
  | none =>
    if place.isEmpty || d.folders.contains place || d.files.keys.any (place.isPrefixOf ·) then some .folder
    else none

/-- Follows components from a folder or file; `here` is where it has come, or nothing in the empty folder
that relative paths start in. -/
def follow (d : Disk) (here : Option (List String)) : List String → Except ReadErrorKind Entry
  | [] =>
    match here with
    | none => .ok .folder
    | some place => match d.entry? place with
      | some e => .ok e
      | none => .error .notFound
  | c :: rest =>
    let entry : Option Entry := match here with
      | none => some .folder
      | some place => d.entry? place
    match entry with
    | none => .error .notFound
    | some (.file _) => .error .notDirectory
    | some .folder =>
      if c = "" ∨ c = "." then d.follow here rest
      else match here with
        | none => .error .notFound
        | some place =>
          if c = ".." then d.follow (some place.dropLast) rest
          else d.follow (some (place ++ [c])) rest

/-- What is at a path, or why nothing can be found there. -/
def lookup (d : Disk) (path : String) : Except ReadErrorKind Entry :=
  if path.toList.contains '\x00' then .error .invalidInput
  else if path = "" then .error .notFound
  else d.follow (if isAbsolute path then some [] else none) (components path)

def isFile (d : Disk) (path : String) : Bool :=
  match d.lookup path with
  | .ok (.file _) => true
  | _ => false

def wording : ReadErrorKind → String
  | .invalidData => "stream did not contain valid UTF-8"
  | .isDirectory => "Is a directory (os error 21)"
  | .notDirectory => "Not a directory (os error 20)"
  | .invalidInput => "file name contained an unexpected NUL byte"
  | _ => "No such file or directory (os error 2)"

/-- A failure with its usual wording. -/
def failure (kind : ReadErrorKind) : ReadError :=
  ⟨kind, wording kind⟩

def readPath (d : Disk) (path : String) : Except ReadError String :=
  match d.lookup path with
  | .ok (.file (.text s)) => .ok s
  | .ok (.file .binary) => .error (failure .invalidData)
  | .ok .folder => .error (failure .isDirectory)
  | .error kind => .error (failure kind)

/-- A path and a name below it; a name that starts at the root stands for itself. -/
def below (root name : String) : String :=
  if isAbsolute name then name
  else if root = "" ∨ root.toList.getLast? = some '/' then root ++ name
  else root ++ "/" ++ name

instance : Source Disk where
  resolveBundle d name :=
    let path := match d.bundleRoot with
      | some root => below root name
      | none => name
    (if d.isFile path then some (.ofPath path) else none, d)
  isPresent d location := (location.path?.any d.isFile, d)
  read d location :=
    (match location.path? with
      | some path => d.readPath path
      | none => .error ⟨.unsupported, "not a local file: " ++ location.text⟩, d)
  modified d location :=
    (location.path?.bind fun path => match d.lookup path with
      | .ok _ => some (.timestamp 0)
      | .error _ => none, d)

end Disk

end Stylebook
