import Stylebook.Selector.Basic
import Stylebook.Table

/-!
# The content of a style sheet

Rules in source order, each with its selectors and declarations, and a table of variables. A
declaration keeps its value as raw text: it may refer to variables, and only a later reading turns it
into a typed value.

Property names are compared without regard to dashes and to the case of ASCII letters.
-/

set_option autoImplicit false

namespace Stylebook

/-- A property with the raw text of its value. -/
structure Declaration where
  property : String
  value : String
  deriving Repr, DecidableEq

/-- Selectors with the declarations that hold under them. -/
structure Rule where
  selectors : List Selector
  declarations : List Declaration
  deriving Repr, DecidableEq

/-- What a style sheet says. -/
structure Content where
  rules : List Rule
  definitions : Table String String
  deriving Repr, DecidableEq

/-- A property name without dashes, its ASCII letters in lower case. -/
def foldPropertyName (name : String) : List Char :=
  (name.toList.filter (· ≠ '-')).map Char.toLower

def sameProperty (a b : String) : Bool :=
  foldPropertyName a == foldPropertyName b

def Rule.hasSelector (r : Rule) (s : Selector) : Bool :=
  r.selectors.contains s

/-- The last declaration of a property in the rule. -/
def Rule.declaration? (r : Rule) (property : String) : Option Declaration :=
  r.declarations.reverse.find? fun d => sameProperty d.property property

namespace Content

def empty : Content := ⟨[], .empty⟩

def valueOf? (c : Content) (name : String) : Option String :=
  c.definitions.get? name

def addRule (c : Content) (r : Rule) : Content :=
  { c with rules := c.rules ++ [r] }

/-- Defines a variable, in place of an earlier definition of the same name. -/
def define (c : Content) (name value : String) : Content :=
  { c with definitions := c.definitions.insert name value }

def isEmpty (c : Content) : Bool :=
  c.rules.isEmpty && c.definitions.entries.isEmpty

end Content

end Stylebook
