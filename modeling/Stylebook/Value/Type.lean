/-!
# Types of values

A type of values is a name. Thirteen names are known from the start; a host may add others.
-/

set_option autoImplicit false

namespace Stylebook

/-- The name of a kind of values. -/
structure ValueType where
  name : String
  deriving DecidableEq

namespace ValueType

def string : ValueType := ⟨"String"⟩

def bool : ValueType := ⟨"Bool"⟩

def number : ValueType := ⟨"Number"⟩

def relativeNumber : ValueType := ⟨"RelativeNumber"⟩

def color : ValueType := ⟨"Color"⟩

def rect : ValueType := ⟨"Rect"⟩

def offset : ValueType := ⟨"Offset"⟩

def size : ValueType := ⟨"Size"⟩

def point : ValueType := ⟨"Point"⟩

def insets : ValueType := ⟨"EdgeInsets"⟩

def font : ValueType := ⟨"Font"⟩

def keywords : ValueType := ⟨"Enum"⟩

def transform : ValueType := ⟨"Transform"⟩

/-- The types that are known from the start. -/
def builtin : List ValueType :=
  [string, bool, number, relativeNumber, color, rect, offset, size, point, insets, font, keywords,
   transform]

end ValueType

end Stylebook
