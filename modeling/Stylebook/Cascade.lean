import Stylebook.Repository.Basic
import Stylebook.Selector.Reader
import Stylebook.Variables

/-!
# The cascade

The cascade ties loaded sheets, variables and readers of values together. Of the declarations of a property
under a selector, the last one of the newest sheet that has any holds. Its text is expanded before it is
read, and what is read is set on host objects.

Readings take the serial number of the call, which readers of host objects mark their results with.
-/

set_option autoImplicit false

namespace Stylebook

/-- Sheets, variables and readers of values. -/
structure Cascade (σ α : Type) where
  sheets : Repository σ
  vars : Variables
  registry : Registry α

namespace Cascade

variable {σ α κ : Type}

/-- A cascade over a repository, without variables set at run time. -/
def of (sheets : Repository σ) (registry : Registry α) : Cascade σ α :=
  ⟨sheets, .empty, registry⟩

/-! ## Variables -/

def valueOf? (c : Cascade σ α) (name : String) (scope : Scope) : Option String :=
  c.vars.valueOf? (c.sheets.activeSheets scope) name

/-- The text with its references to variables replaced, and whether anything was replaced. -/
def expand (c : Cascade σ α) (raw : String) (scope : Scope) : String × Bool :=
  c.vars.expand (c.sheets.activeSheets scope) raw

def resolveVariable? (c : Cascade σ α) (serial : Nat) (name : String) (type : ValueType)
    (scope : Scope) : Option (Value α) :=
  c.vars.typed? (c.sheets.activeSheets scope) c.registry serial name type

/-! ## Declarations -/

def parseValue (c : Cascade σ α) (serial : Nat) (type : ValueType) (raw : String) (scope : Scope) :
    Except ValueError (Value α) :=
  c.registry.parse serial type (c.expand raw scope).1

/-- The declaration of a property that holds under a selector among sheets, newest first. -/
def declarationIn? (selector : Selector) (property : String) (sheets : List Sheet) :
    Option Declaration :=
  ((sheets.flatMap fun s => s.content.rules.reverse).filter (·.hasSelector selector)).findSome?
    (·.declaration? property)

/-- The raw text that is declared for a property under a selector; nothing if the text of the selector
cannot be understood. -/
def declared? (c : Cascade σ α) (selector property : String) (scope : Scope) : Option String :=
  match Selector.parse selector with
  | .error _ => none
  | .ok s => (declarationIn? s property (c.sheets.activeSheets scope).reverse).map (·.value)

def resolve (c : Cascade σ α) (serial : Nat) (selector : String) (property : Property α κ)
    (scope : Scope) : Except ValueError (Option (Value α)) :=
  match c.declared? selector property.name scope with
  | none => .ok none
  | some raw => (c.parseValue serial property.type raw scope).map fun v => some (property.mapKeywords v)

/-! ## Host objects -/

/-- Sets a property of an object to what a raw text says; answers whether it was set, together with the
object as it is afterwards. -/
def apply (c : Cascade σ α) (serial : Nat) (property : Property α κ) (object : κ) (raw : String)
    (parameters : List String) (scope : Scope) : Except ValueError Bool × κ :=
  match c.parseValue serial property.type raw scope with
  | .error e => (.error e, object)
  | .ok v =>
    let (done, object) :=
      property.setValue object (property.mapKeywords v) (property.transformParameters parameters)
    (.ok done, object)

/-- Sets a property of an object to what is declared for it under a selector, if anything is. -/
def applyDeclared (c : Cascade σ α) (serial : Nat) (selector : String) (property : Property α κ)
    (object : κ) (scope : Scope) : Except ValueError Bool × κ :=
  match c.resolve serial selector property scope with
  | .error e => (.error e, object)
  | .ok none => (.ok false, object)
  | .ok (some v) =>
    let (done, object) := property.setValue object v []
    (.ok done, object)

end Cascade

end Stylebook
