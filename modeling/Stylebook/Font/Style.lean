import Stylebook.Text.Lowercase

/-!
# Text styles and typefaces

A text style is a role of text (a body, a headline) with a usual size. A typeface is a family by name,
one of the three system typefaces, or the typeface of a text style. Names are recognized without regard
to the case of ASCII letters; a name that is not recognized is the name of a family.
-/

set_option autoImplicit false

namespace Stylebook

/-- Roles of text. -/
inductive TextStyle where
  | body
  | callout
  | caption1
  | caption2
  | footnote
  | headline
  | subheadline
  | title1
  | title2
  | title3
  deriving Repr, DecidableEq

namespace TextStyle

def all : List TextStyle :=
  [.body, .callout, .caption1, .caption2, .footnote, .headline, .subheadline, .title1, .title2,
   .title3]

def name : TextStyle → String
  | .body => "body"
  | .callout => "callout"
  | .caption1 => "caption1"
  | .caption2 => "caption2"
  | .footnote => "footnote"
  | .headline => "headline"
  | .subheadline => "subheadline"
  | .title1 => "title1"
  | .title2 => "title2"
  | .title3 => "title3"

def named? (name : List Char) : Option TextStyle :=
  all.find? fun s => Text.sameIgnoringCase s.name.toList name

/-- The usual size of a text style in points. -/
def usualSize : TextStyle → Nat
  | .body => 17
  | .callout => 16
  | .caption1 => 12
  | .caption2 => 11
  | .footnote => 13
  | .headline => 17
  | .subheadline => 15
  | .title1 => 28
  | .title2 => 22
  | .title3 => 20

end TextStyle

/-- What letters look like. -/
inductive Typeface where
  | family (name : String)
  | system
  | boldSystem
  | italicSystem
  | style (s : TextStyle)
  deriving Repr, DecidableEq

namespace Typeface

/-- The typeface of a name. -/
def ofName (name : List Char) : Typeface :=
  let small := Text.asciiLower name
  let starts (word : String) : Bool := word.toList.isPrefixOf small
  if starts "boldsystem" || starts "systembold" then .boldSystem
  else if starts "italicsystem" || starts "systemitalic" then .italicSystem
  else if small == "system".toList then .system
  else match TextStyle.named? small with
    | some s => .style s
    | none => .family (String.ofList name)

/-- The written form of a typeface: a family name with a blank in it stands between quotes. -/
def text : Typeface → String
  | .family name => if name.toList.contains ' ' then "\"" ++ name ++ "\"" else name
  | .system => "system"
  | .boldSystem => "systembold"
  | .italicSystem => "systemitalic"
  | .style s => s.name

end Typeface

end Stylebook
