import Stylebook.Text.Lowercase
import Stylebook.Text.Quoted
import Stylebook.Text.Truth
import Stylebook.Value.Basic
import Stylebook.Value.Type

/-!
# Properties of host objects

A property ties a name and a type of values to an attribute of host objects. Host objects are values of a
type `κ` that the host chooses; a setter takes an object, a value and the values of parameters, and
answers whether it has set anything, together with the object as it leaves it.

Property names are compared without regard to dashes and case, here in every script.
-/

set_option autoImplicit false

namespace Stylebook

/-- Changes an attribute of a host object, or declines. -/
abbrev Setter (α κ : Type) : Type :=
  κ → Value α → List (Value α) → Bool × κ

/-- A typed attribute of host objects. -/
structure Property (α κ : Type) where
  name : String
  type : ValueType
  /-- The name of the class of objects that have the attribute. -/
  target : String
  /-- Whether an object is of that class, as far as the property knows. -/
  accepts : κ → Bool
  setter : Option (Setter α κ)
  /-- What the raw text of each parameter is turned into. -/
  parameters : List (String → Value α)
  /-- The numbers of keywords. -/
  mapping : Option (String → Int64)

/-- A name in lower case without dashes. -/
def normalizeName (name : String) : String :=
  String.ofList ((name.toList.filter (· ≠ '-')).flatMap Text.lowerChar)

namespace Property

variable {α κ : Type}

/-- A property without a setter. -/
def plain (name : String) (type : ValueType) (target : String) : Property α κ :=
  ⟨name, type, target, fun _ => true, none, [], none⟩

/-- A property of the objects that `view?` shows as values of `τ`. Its setter runs on values that
`convert` accepts, and declines any other. -/
def typed {τ ν : Type} (name : String) (type : ValueType) (target : String) (view? : κ → Option τ)
    (review : τ → κ) (convert : Value α → Option ν) (set : τ → ν → List (Value α) → τ) :
    Property α κ where
  name := name
  type := type
  target := target
  accepts object := (view? object).isSome
  setter := some fun object value parameters =>
    match view? object, convert value with
    | some inner, some v => (true, review (set inner v parameters))
    | _, _ => (false, object)
  parameters := []
  mapping := none

def withSetter (p : Property α κ) (setter : Setter α κ) : Property α κ :=
  { p with setter := some setter }

def withMapping (p : Property α κ) (mapping : String → Int64) : Property α κ :=
  { p with mapping := some mapping }

def withParameter (p : Property α κ) (parameter : String → Value α) : Property α κ :=
  { p with parameters := p.parameters ++ [parameter] }

def matchesName (p : Property α κ) (name : String) : Bool :=
  normalizeName name == normalizeName p.name

/-- The values of raw parameters; one that the property does not know is a text. -/
def parameterValues : List (String → Value α) → List String → List (Value α)
  | _, [] => []
  | [], raw :: raws => .string raw :: parameterValues [] raws
  | f :: fs, raw :: raws => f raw :: parameterValues fs raws

/-- The values of raw parameters of the property. -/
def transformParameters (p : Property α κ) (raw : List String) : List (Value α) :=
  parameterValues p.parameters raw

/-- Keywords replaced by their number, if the property has numbers for them. -/
def mapKeywords (p : Property α κ) (value : Value α) : Value α :=
  match p.mapping, value with
  | some f, .keywords text => .enumValue (f text)
  | _, value => value

/-- Sets the attribute of an object. It is not set if the property has no setter, does not accept the
object, or its setter declines. -/
def setValue (p : Property α κ) (object : κ) (value : Value α) (parameters : List (Value α)) : Bool × κ :=
  if p.accepts object then
    match p.setter with
    | some setter => setter object value parameters
    | none => (false, object)
  else (false, object)

def describe (p : Property α κ) : String :=
  "Property \x7b name: " ++ Text.quoted p.name
    ++ ", property_type: PropertyType(" ++ Text.quoted p.type.name
    ++ "), target: " ++ Text.quoted p.target
    ++ ", has_setter: " ++ Text.truth p.setter.isSome
    ++ ", parameters: " ++ toString p.parameters.length
    ++ ", has_enum_mapping: " ++ Text.truth p.mapping.isSome ++ " \x7d"

end Property

end Stylebook
