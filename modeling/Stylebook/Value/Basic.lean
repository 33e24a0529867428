import Stylebook.Color.Basic
import Stylebook.Font.Basic
import Stylebook.Geometry.Transform

/-!
# Typed values

What raw text is read as. A relative number is a number, a percentage of something known later, or left
to the host. A value of a type that the host added is a host object: it carries a serial number, and two
host objects are the same object when their serial numbers agree.

The conversions `to…?` answer the content of a value as plain data. Only three of them accept more than
one kind: a number may be written as a relative number or be the number of a keyword, and a text may be
a row of keywords.
-/

set_option autoImplicit false

namespace Stylebook

/-- A number, a percentage, or whatever the host thinks best. -/
inductive RelativeNumber (α : Type) where
  | absolute (v : α)
  | percent (p : α)
  | auto
  deriving BEq, DecidableEq

/-- An object made by a reader that the host added. -/
structure HostObject where
  /-- Tells objects apart that were made one after another. -/
  serial : Nat
  text : String
  deriving DecidableEq

instance : BEq HostObject where
  beq a b := a.serial == b.serial

/-- A typed value. -/
inductive Value (α : Type) where
  | string (s : String)
  | bool (b : Bool)
  | number (v : α)
  | relative (r : RelativeNumber α)
  | color (c : Color α)
  | rect (r : Rect α)
  | offset (d : Offset α)
  | size (s : Size α)
  | point (p : Point α)
  | insets (i : Insets α)
  | font (f : Font α)
  /-- Keywords with single blanks between them. -/
  | keywords (text : String)
  /-- What keywords stand for. -/
  | enumValue (v : Int64)
  | transform (t : Transform α)
  | custom (o : HostObject)
  deriving BEq

variable {α : Type}

def Scalar.ofInt [Scalar α] (v : Int) : α :=
  if v < 0 then -Scalar.ofNat v.natAbs else Scalar.ofNat v.natAbs

namespace RelativeNumber

variable [Scalar α]

/-- The number that a relative number stands for, given what percentages refer to. -/
def resolve (r : RelativeNumber α) (reference : α) : Option α :=
  match r with
  | .absolute v => some v
  | .percent p => some (reference * p / Scalar.ofNat 100)
  | .auto => none

def text : RelativeNumber α → String
  | .absolute v => Scalar.render v
  | .percent p => Scalar.render p ++ "%"
  | .auto => "auto"

end RelativeNumber

namespace Value

def kind : Value α → String
  | .string _ => "String"
  | .bool _ => "Bool"
  | .number _ => "Number"
  | .relative _ => "RelativeNumber"
  | .color _ => "Color"
  | .rect _ => "Rect"
  | .offset _ => "Offset"
  | .size _ => "Size"
  | .point _ => "Point"
  | .insets _ => "EdgeInsets"
  | .font _ => "Font"
  | .keywords _ => "Enum"
  | .enumValue _ => "EnumValue"
  | .transform _ => "Transform"
  | .custom _ => "Custom"

/-! ## Conversions -/

def toBool? : Value α → Option Bool
  | .bool b => some b
  | _ => none

def toRelative? : Value α → Option (RelativeNumber α)
  | .relative r => some r
  | _ => none

def toColor? : Value α → Option (Color α)
  | .color c => some c
  | _ => none

def toRect? : Value α → Option (Rect α)
  | .rect r => some r
  | _ => none

def toOffset? : Value α → Option (Offset α)
  | .offset d => some d
  | _ => none

def toSize? : Value α → Option (Size α)
  | .size s => some s
  | _ => none

def toPoint? : Value α → Option (Point α)
  | .point p => some p
  | _ => none

def toInsets? : Value α → Option (Insets α)
  | .insets i => some i
  | _ => none

def toFont? : Value α → Option (Font α)
  | .font f => some f
  | _ => none

def toTransform? : Value α → Option (Transform α)
  | .transform t => some t
  | _ => none

/-- A number, an absolute relative number, or the number of a keyword. -/
def toNumber? [Scalar α] : Value α → Option α
  | .number v => some v
  | .relative (.absolute v) => some v
  | .enumValue v => some (Scalar.ofInt v.toInt)
  | _ => none

/-- The number of a keyword. -/
def toEnumValue? : Value α → Option Int64
  | .enumValue v => some v
  | _ => none

/-- A text or a row of keywords. -/
def toText? : Value α → Option String
  | .string s => some s
  | .keywords s => some s
  | _ => none

end Value

end Stylebook
