import Stylebook.Text.Quotes
import Stylebook.Value.Basic
import Stylebook.Value.Reading

/-!
# Reading fonts

A plain font is one or two components, with or without a comma between them, where a component is a size
or the name of a typeface. Functions change the size of another font or make it follow a text style.

A comma behind the first component of a plain font may belong to the font or to the function around it.
It is first taken to belong to the font; if the arguments of the function cannot be read that way, they
are read again with plain fonts of one component.
-/

set_option autoImplicit false

namespace Stylebook

namespace Font

variable {α : Type} [Scalar α]

/-- One component of a plain font. -/
inductive Component (α : Type) where
  | size (n : α)
  | name (cs : List Char)

def takeComponent : Reading (Component α)
  | [] => (.error (.expectedFont none), [])
  | t :: rest =>
    match t.kind with
    | .number => (Reading.looseNumber >>= fun n => pure (.size n)) (t :: rest)
    | .dimension => (Reading.looseNumber >>= fun n => pure (.size n)) (t :: rest)
    | .doubleQuoted => (.ok (.name (Text.trimQuotes t.chars)), rest)
    | .singleQuoted => (.ok (.name (Text.trimQuotes t.chars)), rest)
    | .ident =>
      if rest.head?.map (·.kind) = some .parenOpen then
        (.error (.expectedFont (some t.text)), t :: rest)
      else (.ok (.name t.chars), rest)
    | _ => (.error (.expectedFont (some t.text)), t :: rest)

/-- The size among components, the last one if there are two. -/
def sizeAmong (usual : α) : List (Component α) → α
  | [] => usual
  | .size n :: rest => sizeAmong n rest
  | .name _ :: rest => sizeAmong usual rest

/-- The name among components, the last one if there are two. -/
def nameAmong (found : Option (List Char)) : List (Component α) → Option (List Char)
  | [] => found
  | .size _ :: rest => nameAmong found rest
  | .name cs :: rest => nameAmong (some cs) rest

/-- The font that components describe. A text style has a size of its own. -/
def ofComponents (usual : α) (cs : List (Component α)) : Font α :=
  match (nameAmong none cs).map Typeface.ofName with
  | none => plain .system (sizeAmong usual cs)
  | some (.style s) => preferred s
  | some typeface => plain typeface (sizeAmong usual cs)

/-- Takes a plain font, with a second component if `second` allows it and one can be taken. -/
def takePlain (usual : α) (second : Bool) : Reading (Font α) := do
  let c ← takeComponent
  if second then
    match ← Reading.attempt (do let _ ← Reading.eat .comma; takeComponent) with
    | some d => pure (ofComponents usual [c, d])
    | none => pure (ofComponents usual [c])
  else pure (ofComponents usual [c])

/-- Takes the text style behind the font that is to follow it; the body style if none is named. -/
def takeScaling (f : Font α) : Reading (Font α) := do
  if ← Reading.eat .comma then
    let t ← Reading.expect .ident
    match TextStyle.named? t.chars with
    | some s =>
      let _ ← Reading.expect .parenClose
      pure (f.scaled s)
    | none => Reading.fail (.unknownTextStyle t.text)
  else
    let _ ← Reading.expect .parenClose
    pure (f.scaled .body)

/-- Takes the number behind the font that a function resizes. -/
def takeAmount (f : Font α) : Reading (Font α × α) := do
  let _ ← Reading.expect .comma
  let amount ← Reading.number
  let _ ← Reading.expect .parenClose
  pure (f, amount)

/-- What a function makes of a font and an amount. -/
def resized? (function : String) (f : Font α) (amount : α) : Option (Font α) :=
  match function with
  | "larger" => some (f.withSize (f.size + amount))
  | "bigger" => some (f.withSize (f.size + amount))
  | "smaller" => some (f.withSize (f.size - amount))
  | "fontwithsize" => some (f.withSize amount)
  | _ => none

/-- The font that a function makes of its arguments. -/
def resize (function : String) (arguments : Font α × α) : Reading (Font α) :=
  match resized? function arguments.1 arguments.2 with
  | some f => pure f
  | none => Reading.fail (.unknownFontFunction function)

/-- Takes a font; `usual` is the size of a font that names none, and `second` says whether a plain font
may have two components. -/
def take (usual : α) (second : Bool) : Reading (Font α)
  | t :: u :: inner =>
    if t.kind = .ident ∧ u.kind = .parenOpen then
      if Reading.functionOf t = "scaledfont" then
        Reading.continueWith (take usual true inner) takeScaling
      else
        match Reading.continueWith (take usual true inner) takeAmount with
        | (.ok arguments, rest) => resize (Reading.functionOf t) arguments rest
        | (.error _, _) =>
          Reading.continueWith
            (Reading.continueWith (take usual false inner) takeAmount) (resize (Reading.functionOf t))
    else takePlain usual second (t :: u :: inner)
  | ts => takePlain usual second ts

/-- The size of a font that names none, unless the host sets another. -/
def systemSize : α :=
  Scalar.ofNat 17

def parse (usual : α) (type : ValueType) (raw : List Char) : Except ValueError (Font α) :=
  Reading.whole type raw (take usual true)

end Font

def readFont {α : Type} [Scalar α] (usual : α) (type : ValueType) (raw : List Char) :
    Except ValueError (Value α) :=
  (Font.parse usual type raw).map .font

end Stylebook
