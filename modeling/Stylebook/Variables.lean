import Stylebook.Reference
import Stylebook.Registry
import Stylebook.Sheet.Basic
import Stylebook.Text.Quotes

/-!
# Variables

A variable has the value that was set for it at run time, or else the value that the newest of the given
sheets defines. Expansion replaces each reference of a text by the expanded value of its variable, quotes
and blanks at the ends of the value left out; a reference without a value stays as it is, and so does one
to a variable that is just being expanded, or one nested deeper than `maxDepth`.

What is put in is not searched for references again: a reference cannot arise from the text around it.
-/

set_option autoImplicit false

namespace Stylebook

/-- How deep references may be nested within one expansion. -/
def maxDepth : Nat := 32

/-- The text with each reference replaced by what `resolve` says of its name, and whether anything was
replaced. -/
def replaceReferences (resolve : List Char → Option (List Char)) :
    List Reference.Segment → List Char × Bool
  | [] => ([], false)
  | s :: rest =>
    let (behind, changed) := replaceReferences resolve rest
    match s with
    | .plain c => (c :: behind, changed)
    | .reference mark name =>
      match resolve name with
      | some value => (value ++ behind, true)
      | none => (mark ++ name ++ behind, changed)

/-- The expansion of a text, where `lookup` gives the values of variables, `depth` is how deep references
may still be nested and `pending` are the variables being expanded. -/
def expandAt (lookup : List Char → Option (List Char)) :
    (depth : Nat) → (pending : List (List Char)) → List Char → List Char × Bool
  | 0, _, raw => replaceReferences (fun _ => none) (Reference.segments raw)
  | depth + 1, pending, raw =>
    replaceReferences
      (fun name =>
        if pending.contains name then none
        else (lookup name).map fun value =>
          (expandAt lookup depth (name :: pending) (Text.trimQuotes value)).1)
      (Reference.segments raw)

/-- Values of variables that were set at run time. -/
structure Variables where
  overrides : Table String String
  deriving DecidableEq

namespace Variables

def empty : Variables := ⟨.empty⟩

/-- A name without the mark of a reference in front of it. -/
def bareName (name : String) : String :=
  String.ofList (Reference.bare name.toList)

/-- Sets a variable, for every sheet. -/
def set (v : Variables) (name value : String) : Variables :=
  ⟨v.overrides.insert (bareName name) value⟩

/-- The value that was set for a variable. -/
def override? (v : Variables) (name : String) : Option String :=
  v.overrides.get? (bareName name)

/-- Takes back the value that was set for a variable. -/
def unset (v : Variables) (name : String) : Variables :=
  ⟨v.overrides.erase (bareName name)⟩

/-- The raw value of a variable by its bare name; `sheets` are the sheets to look in, oldest first. -/
def lookup (v : Variables) (sheets : List Sheet) (name : String) : Option String :=
  match v.overrides.get? name with
  | some value => some value
  | none => sheets.reverse.findSome? fun s => s.valueOf? name

def valueOf? (v : Variables) (sheets : List Sheet) (name : String) : Option String :=
  v.lookup sheets (bareName name)

/-- The raw value of a variable as characters. -/
def lookupChars (v : Variables) (sheets : List Sheet) (name : List Char) : Option (List Char) :=
  (v.lookup sheets (String.ofList name)).map String.toList

/-- The text with its references replaced, and whether anything was replaced. -/
def expand (v : Variables) (sheets : List Sheet) (raw : String) : String × Bool :=
  let (cs, changed) := expandAt (v.lookupChars sheets) maxDepth [] raw.toList
  (String.ofList cs, changed)

/-- A variable read as a value of a type; nothing if it has no value or cannot be read. -/
def typed? {α : Type} (v : Variables) (sheets : List Sheet) (registry : Registry α) (serial : Nat)
    (name : String) (type : ValueType) : Option (Value α) :=
  (v.valueOf? sheets name).bind fun raw =>
    let expanded := (v.expand sheets raw).1
    (registry.parse serial type (String.ofList (Text.trimQuotes expanded.toList))).toOption

end Variables

end Stylebook
