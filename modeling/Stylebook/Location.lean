import Stylebook.Text.Blank
import Stylebook.Text.Search

/-!
# Where style sheets come from

A location is a path, or a scheme and a path. A path and a location of the scheme `file` are local, one of
the schemes `http` and `https` is remote; what any other scheme means is up to the source that reads it.
-/

set_option autoImplicit false

namespace Stylebook

/-- The place that a style sheet was loaded from, which is also its identity. -/
structure Location where
  text : String
  deriving DecidableEq

namespace Location

/-- The location of a path of the file system. -/
def ofPath (path : String) : Location :=
  ⟨"file://" ++ path⟩

def path? (l : Location) : Option String :=
  match "file://".toList.isPrefixOf? l.text.toList with
  | some path => some (String.ofList path)
  | none => if Text.occurs "://".toList l.text.toList then none else some l.text

def isRemote (l : Location) : Bool :=
  "http://".toList.isPrefixOf l.text.toList || "https://".toList.isPrefixOf l.text.toList

/-- The last component of the path, without a query or fragment and without slashes at the end. -/
def lastComponent (l : Location) : String :=
  let path := l.text.toList.takeWhile fun c => c ≠ '?' && c ≠ '#'
  String.ofList (Text.afterLast '/' (Text.trimEndWhile (· == '/') path))

end Location

end Stylebook
