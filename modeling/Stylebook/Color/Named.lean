import Stylebook.Color.Basic
import Stylebook.Table

/-!
# Colours by name

Names are looked up without regard to the case of ASCII letters, and a name may end in the word
`color`.
-/

set_option autoImplicit false

namespace Stylebook.Color

/-- The opaque colours that have a name, by their bytes. -/
def namedBytes : List (String × Nat × Nat × Nat) :=
  [("black", 0, 0, 0), ("white", 255, 255, 255), ("red", 255, 0, 0), ("green", 0, 128, 0),
   ("lime", 0, 255, 0), ("blue", 0, 0, 255), ("navy", 0, 0, 128), ("yellow", 255, 255, 0),
   ("cyan", 0, 255, 255), ("aqua", 0, 255, 255), ("magenta", 255, 0, 255),
   ("fuchsia", 255, 0, 255), ("orange", 255, 165, 0), ("purple", 128, 0, 128),
   ("brown", 165, 42, 42), ("gray", 128, 128, 128), ("grey", 128, 128, 128),
   ("lightgray", 211, 211, 211), ("lightgrey", 211, 211, 211), ("darkgray", 169, 169, 169),
   ("darkgrey", 169, 169, 169), ("silver", 192, 192, 192), ("maroon", 128, 0, 0),
   ("olive", 128, 128, 0), ("teal", 0, 128, 128), ("pink", 255, 192, 203), ("gold", 255, 215, 0),
   ("indigo", 75, 0, 130), ("violet", 238, 130, 238), ("coral", 255, 127, 80),
   ("salmon", 250, 128, 114), ("tomato", 255, 99, 71), ("crimson", 220, 20, 60),
   ("khaki", 240, 230, 140), ("beige", 245, 245, 220), ("ivory", 255, 255, 240),
   ("steelblue", 70, 130, 180), ("skyblue", 135, 206, 235), ("royalblue", 65, 105, 225),
   ("slategray", 112, 128, 144), ("slategrey", 112, 128, 144), ("whitesmoke", 245, 245, 245)]

/-- The names of the colour that shows nothing. -/
def clearNames : List String :=
  ["clear", "transparent"]

/-- A name in lower case, without the word `color` at its end. -/
def baseName (name : List Char) : List Char :=
  let small := name.map Char.toLower
  if "color".toList.isSuffixOf small then small.take (small.length - 5) else small

/-- The colour of a name. -/
def named? {α : Type} [Scalar α] (name : List Char) : Option (Color α) :=
  let base := String.ofList (baseName name)
  if clearNames.contains base then some clear
  else (Table.lookup base namedBytes).map fun (r, g, b) => ofBytes r g b

end Stylebook.Color
