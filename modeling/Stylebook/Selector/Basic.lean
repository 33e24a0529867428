/-!
# Selectors

A simple selector names an element type, a class, an identifier or a state, or stands for every
element. A compound is a row of simple selectors without gaps, and a selector is a row of compounds
joined by combinators. Neither row is ever empty, which the types say by holding the first member apart.

Selectors are data: nothing here matches them against elements, and two are equal when they have the
same parts. `Selector.chars` is the written form.
-/

set_option autoImplicit false

namespace Stylebook

/-- The indivisible part of a selector. -/
inductive Simple where
  /-- Elements of a type. -/
  | element (name : String)
  /-- Every element. -/
  | universal
  /-- Elements of a class. -/
  | className (name : String)
  /-- The element with an identifier. -/
  | identifier (name : String)
  /-- Elements in a state. -/
  | pseudo (name : String)
  deriving Repr, DecidableEq

/-- Simple selectors that hold of one element together. -/
structure Compound where
  head : Simple
  tail : List Simple
  deriving Repr, DecidableEq

/-- The simple selectors of a compound, in order. -/
def Compound.simples (c : Compound) : List Simple :=
  c.head :: c.tail

/-- How an element relates to the one before it. -/
inductive Combinator where
  /-- Anywhere inside. -/
  | descendant
  /-- Directly inside. -/
  | child
  deriving Repr, DecidableEq

/-- A chain of compounds. -/
structure Selector where
  head : Compound
  tail : List (Combinator × Compound)
  deriving Repr, DecidableEq

/-- One member of the flat view of a selector. -/
inductive SelectorPart where
  | compound (c : Compound)
  | combinator (c : Combinator)
  deriving Repr, DecidableEq

/-- The compounds and combinators of a selector in one row, a compound first and last. -/
def Selector.parts (s : Selector) : List SelectorPart :=
  .compound s.head :: s.tail.flatMap fun link => [.combinator link.1, .compound link.2]

/-- The selector `s`, a combinator, and the selector `t`. -/
def Selector.link (s : Selector) (c : Combinator) (t : Selector) : Selector :=
  ⟨s.head, s.tail ++ (c, t.head) :: t.tail⟩

/-! ## Written form -/

def Simple.chars : Simple → List Char
  | .element name => name.toList
  | .universal => ['*']
  | .className name => '.' :: name.toList
  | .identifier name => '#' :: name.toList
  | .pseudo name => ':' :: name.toList

def Compound.chars (c : Compound) : List Char :=
  c.simples.flatMap Simple.chars

def Combinator.chars : Combinator → List Char
  | .descendant => [' ']
  | .child => [' ', '>', ' ']

def SelectorPart.chars : SelectorPart → List Char
  | .compound c => c.chars
  | .combinator c => c.chars

def Selector.chars (s : Selector) : List Char :=
  s.parts.flatMap SelectorPart.chars

def Selector.text (s : Selector) : String :=
  String.ofList s.chars

/-- Linking puts the parts of both selectors around the combinator. -/
theorem Selector.parts_link (s : Selector) (c : Combinator) (t : Selector) :
    (s.link c t).parts = s.parts ++ .combinator c :: t.parts := by
  simp [Selector.parts, Selector.link]

end Stylebook
