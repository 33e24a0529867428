import Stylebook.Property.Basic
import Stylebook.Table
import Stylebook.Value.Color
import Stylebook.Value.Figure
import Stylebook.Value.Font
import Stylebook.Value.Keywords
import Stylebook.Value.Plain
import Stylebook.Value.Transform

/-!
# Readers of values by type

A registry gives each type of values its reader. A reader gets the serial number of the call besides the
type and the text: a reader that makes host objects marks them with it, so that objects made by different
calls differ. The readers of this library do not look at it.
-/

set_option autoImplicit false

namespace Stylebook

/-- Reads raw text as a value, given the serial number of the call. -/
abbrev ValueReader (α : Type) : Type :=
  (serial : Nat) → ValueType → String → Except ValueError (Value α)

/-- Readers by type. -/
structure Registry (α : Type) where
  readers : Table ValueType (ValueReader α)

namespace Registry

variable {α : Type}

def empty : Registry α := ⟨.empty⟩

/-- A reader that does not look at the serial number. -/
def reader (read : ValueType → List Char → Except ValueError (Value α)) : ValueReader α :=
  fun _ type raw => read type raw.toList

section Standard

variable [Scalar α] [Trigonometric α]

/-- The thirteen readers of this library; `usual` is the size of a font that names none. -/
def standardReaders (usual : α) : List (ValueType × ValueReader α) :=
  [(.string, reader readString), (.bool, reader readBool), (.number, reader readNumber),
   (.relativeNumber, reader readRelativeNumber), (.color, reader readColor),
   (.rect, reader readRect), (.offset, reader readOffset), (.size, reader readSize),
   (.point, reader readPoint), (.insets, reader readInsets), (.font, reader (readFont usual)),
   (.keywords, reader readKeywords), (.transform, reader readTransform)]

/-- The registry of the thirteen readers with a size for fonts that name none. -/
def withFontSize (usual : α) : Registry α :=
  ⟨Table.ofList (standardReaders usual)⟩

/-- The registry of the thirteen readers. -/
def standard : Registry α :=
  withFontSize Font.systemSize

end Standard

def contains (r : Registry α) (type : ValueType) : Bool :=
  r.readers.contains type

/-- Gives a type a reader, in place of the one it had. -/
def register (r : Registry α) (type : ValueType) (read : ValueReader α) : Registry α :=
  ⟨r.readers.insert type read⟩

/-- Gives a type a reader, if it has none. -/
def tryRegister (r : Registry α) (type : ValueType) (read : ValueReader α) :
    Except ValueError (Registry α) :=
  if r.contains type then .error (.duplicateType type) else .ok (r.register type read)

/-- The types that have readers, in the order of their names. -/
def types (r : Registry α) : List ValueType :=
  r.readers.keys.mergeSort fun a b => !(b.name < a.name)

def parse (r : Registry α) (serial : Nat) (type : ValueType) (raw : String) :
    Except ValueError (Value α) :=
  match r.readers.get? type with
  | some read => read serial type raw
  | none => .error (.unknownType type)

/-- One error for each of the types that has no reader. -/
def missing (r : Registry α) (types : List ValueType) : List ValueError :=
  (types.filter fun type => !r.contains type).map .unknownType

/-- Checks that the type of every property has a reader. -/
def validate {κ : Type} (r : Registry α) (properties : List (Property α κ)) : List ValueError :=
  r.missing (properties.map (·.type))

def describe (r : Registry α) : String :=
  let members := r.types.map fun type => "PropertyType(" ++ Text.quoted type.name ++ ")"
  "PropertyParserRegistry \x7b types: [" ++ String.intercalate ", " members ++ "] \x7d"

end Registry

end Stylebook
