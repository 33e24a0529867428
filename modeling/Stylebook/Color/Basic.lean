import Stylebook.Scalar.Basic

/-!
# Colours

A colour has a red, a green, a blue and an alpha channel between zero and one. Adjustments go through
hue, saturation and brightness: they change one of these by a percentage of itself and clamp the result.
The written form is a number sign with two hexadecimal digits for each channel, alpha included.
-/

set_option autoImplicit false

namespace Stylebook

/-- A colour by its channels. -/
structure Color (α : Type) where
  red : α
  green : α
  blue : α
  alpha : α
  deriving Repr, BEq, DecidableEq

/-- A colour without alpha by hue, saturation and brightness. -/
structure Hsb (α : Type) where
  hue : α
  saturation : α
  brightness : α
  deriving Repr, BEq, DecidableEq

namespace Color

variable {α : Type} [Scalar α]

def channel (byte : Nat) : α :=
  Scalar.ofNat byte / Scalar.ofNat 255

/-- The opaque colour of three bytes. -/
def ofBytes (red green blue : Nat) : Color α :=
  ⟨channel red, channel green, channel blue, Scalar.one⟩

def black : Color α := ⟨Scalar.zero, Scalar.zero, Scalar.zero, Scalar.one⟩

def white : Color α := ⟨Scalar.one, Scalar.one, Scalar.one, Scalar.one⟩

def clear : Color α := ⟨Scalar.zero, Scalar.zero, Scalar.zero, Scalar.zero⟩

/-! ## Hue, saturation, brightness -/

/-- The largest of the three colour channels. -/
def brightest (c : Color α) : α :=
  Scalar.larger (Scalar.larger c.red c.green) c.blue

/-- The smallest of the three colour channels. -/
def darkest (c : Color α) : α :=
  Scalar.smaller (Scalar.smaller c.red c.green) c.blue

/-- Hue, saturation and brightness of a colour. A grey has hue and saturation zero. -/
def toHsb (c : Color α) : Hsb α :=
  let top := c.brightest
  let spread := top - c.darkest
  let hue :=
    if spread == Scalar.zero then Scalar.zero
    else if top == c.red then
      Scalar.remainder ((c.green - c.blue) / spread) (Scalar.ofNat 6) / Scalar.ofNat 6
    else if top == c.green then
      ((c.blue - c.red) / spread + Scalar.ofNat 2) / Scalar.ofNat 6
    else ((c.red - c.green) / spread + Scalar.ofNat 4) / Scalar.ofNat 6
  let saturation := if Scalar.less Scalar.zero top then spread / top else Scalar.zero
  ⟨hue, saturation, top⟩

/-- The colour of a hue, saturation, brightness and alpha. -/
def ofHsb (v : Hsb α) (alpha : α) : Color α :=
  let h := Scalar.remainder v.hue Scalar.one * Scalar.ofNat 6
  let c := v.brightness * v.saturation
  let x := c * (Scalar.one - Scalar.size (Scalar.remainder h (Scalar.ofNat 2) - Scalar.one))
  let m := v.brightness - c
  let o := Scalar.zero
  let (r, g, b) := match Scalar.wholePart h with
    | 0 => (c, x, o)
    | 1 => (x, c, o)
    | 2 => (o, c, x)
    | 3 => (o, x, c)
    | 4 => (x, o, c)
    | _ => (c, o, x)
  ⟨r + m, g + m, b + m, alpha⟩

/-! ## Adjustments -/

/-- The value changed by a percentage of itself, clamped between zero and one. -/
def adjust (value percent : α) : α :=
  Scalar.clampUnit (value + value * percent / Scalar.ofNat 100)

def adjustBrightness (c : Color α) (percent : α) : Color α :=
  let v := c.toHsb
  ofHsb { v with brightness := adjust v.brightness percent } c.alpha

def adjustSaturation (c : Color α) (percent : α) : Color α :=
  let v := c.toHsb
  ofHsb { v with saturation := adjust v.saturation percent } c.alpha

def adjustAlpha (c : Color α) (percent : α) : Color α :=
  { c with alpha := adjust c.alpha percent }

def withAlpha (c : Color α) (alpha : α) : Color α :=
  { c with alpha := Scalar.clampUnit alpha }

/-! ## Written form -/

/-- The byte nearest to a channel. -/
def byteOf (v : α) : Nat :=
  Scalar.nearestWhole (Scalar.clampUnit v * Scalar.ofNat 255)

/-- Two hexadecimal digits of a byte. -/
def hexByte (n : Nat) : List Char :=
  [Nat.digitChar (n / 16), Nat.digitChar (n % 16)]

def text (c : Color α) : String :=
  String.ofList
    ('#' :: [c.red, c.green, c.blue, c.alpha].flatMap fun v => hexByte (byteOf v))

end Color

end Stylebook
