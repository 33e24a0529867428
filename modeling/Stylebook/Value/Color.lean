import Stylebook.Color.Hex
import Stylebook.Color.Named
import Stylebook.Text.Quotes
import Stylebook.Value.Basic
import Stylebook.Value.Reading

/-!
# Reading colours

A colour is written in hexadecimal digits, by its channels, by name, or as an adjustment of another
colour, which may be an adjustment itself. A quoted colour is a name.

The function of an adjustment is looked up only after its arguments were read, so a flaw in these is
reported first.
-/

set_option autoImplicit false

namespace Stylebook

namespace Color

variable {α : Type} [Scalar α]

/-- Takes the channels of a colour up to and including the closing parenthesis, with a comma before each
but the first; `first` says that none was taken yet. -/
def channelList (first : Bool) : Reading (List α)
  | [] => (.error (if first then .expectedNumber none else .expectedToken .comma none), [])
  | t :: rest =>
    if t.kind = .parenClose then (.ok [], rest)
    else if first then
      match Token.number? t with
      | some n => Reading.consTo n (channelList false rest)
      | none => (.error (.expectedNumber (some t.text)), t :: rest)
    else if t.kind = .comma then
      match rest with
      | [] => (.error (.expectedNumber none), [])
      | u :: rest =>
        match Token.number? u with
        | some n => Reading.consTo n (channelList false rest)
        | none => (.error (.expectedNumber (some u.text)), u :: rest)
    else (.error (.expectedToken .comma (some t.text)), t :: rest)

/-- The channel that a number from 0 to 255 stands for. -/
def ofChannel (n : α) : α :=
  n / Scalar.ofNat 255

/-- Takes three channels. -/
def takeRgb : Reading (Color α) := do
  match ← channelList true with
  | [r, g, b] => pure ⟨ofChannel r, ofChannel g, ofChannel b, Scalar.one⟩
  | values => Reading.fail (.channelCount 3 values.length)

/-- Takes three channels and alpha. -/
def takeRgba : Reading (Color α) := do
  match ← channelList true with
  | [r, g, b, a] => pure ⟨ofChannel r, ofChannel g, ofChannel b, Scalar.clampUnit a⟩
  | values => Reading.fail (.channelCount 4 values.length)

/-- What an adjustment of a colour by an amount means. -/
def adjustment? (function : String) (c : Color α) (amount : α) : Option (Color α) :=
  match function with
  | "lighten" => some (c.adjustBrightness amount)
  | "darken" => some (c.adjustBrightness (-amount))
  | "saturate" => some (c.adjustSaturation amount)
  | "desaturate" => some (c.adjustSaturation (-amount))
  | "fadein" => some (c.adjustAlpha amount)
  | "fadeout" => some (c.adjustAlpha (-amount))
  | "alpha" => some (c.withAlpha amount)
  | "opacity" => some (c.withAlpha amount)
  | _ => none

/-- Takes the amount behind the colour that a function adjusts. -/
def takeAdjustment (function : String) (c : Color α) : Reading (Color α) := do
  let _ ← Reading.expect .comma
  let amount ← Reading.looseNumber
  let _ ← Reading.expect .parenClose
  match adjustment? function c amount with
  | some adjusted => pure adjusted
  | none => Reading.fail (.unknownColorFunction function)

/-- Takes a colour that is one token. -/
def takeSimple : Reading (Color α)
  | [] => (.error (.expectedColor none), [])
  | t :: rest =>
    match t.kind with
    | .hexColor =>
      match ofHex? t.chars with
      | some c => (.ok c, rest)
      | none => (.error (.badHexColor t.text), rest)
    | .ident =>
      match named? t.chars with
      | some c => (.ok c, rest)
      | none => (.error (.unknownColor t.text), rest)
    | _ => (.error (.expectedColor (some t.text)), t :: rest)

def take : Reading (Color α)
  | t :: u :: inner =>
    if t.kind = .ident ∧ u.kind = .parenOpen then
      if Reading.functionOf t = "rgb" then takeRgb inner
      else if Reading.functionOf t = "rgba" then takeRgba inner
      else Reading.continueWith (take inner) (takeAdjustment (Reading.functionOf t))
    else takeSimple (t :: u :: inner)
  | ts => takeSimple ts

end Color

def readColor {α : Type} [Scalar α] (type : ValueType) (raw : List Char) :
    Except ValueError (Value α) :=
  if Text.isQuoted raw then
    let name := Text.trimQuotes raw
    match Color.named? name with
    | some c => .ok (.color c)
    | none => .error (.invalid type (.unknownColor (String.ofList name)))
  else (Reading.whole type raw Color.take).map .color

end Stylebook
