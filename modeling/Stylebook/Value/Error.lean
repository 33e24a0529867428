import Stylebook.Geometry.Braces
import Stylebook.Token.Basic
import Stylebook.Value.Type

/-!
# Why a value cannot be read

A flaw says what is wrong with the text of a value; a value error adds the type that was asked for, and
covers types without a reader and text that is not made of tokens. Where a flaw holds what was found, the
absence of a text stands for the end of the input.
-/

set_option autoImplicit false

namespace Stylebook

/-- What is wrong with the text of a value. -/
inductive Flaw where
  | expectedToken (kind : TokenKind) (found : Option String)
  | expectedNumber (found : Option String)
  | expectedColor (found : Option String)
  | expectedFont (found : Option String)
  | expectedTransform
  /-- Something stands behind the value. -/
  | leftOver (found : Option String)
  | badHexColor (text : String)
  | unknownColor (name : String)
  | unknownColorFunction (name : String)
  | channelCount (expected found : Nat)
  | unknownTextStyle (name : String)
  | unknownFontFunction (name : String)
  | badPercentage
  | componentCount (found : Nat)
  | badFigure (error : GeometryError)
  | argumentCount (function : String) (found : Nat)
  | unknownTransform (name : String)
  | unterminatedKeyword
  | noKeyword
  /-- In the words of a reader that the host added. -/
  | refused (words : String)
  deriving DecidableEq

/-- What was found, in words. -/
def describeFound : Option String → String
  | some text => "'" ++ text ++ "'"
  | none => "end of input"

def Flaw.message : Flaw → String
  | .expectedToken kind found => "expected " ++ kind.name ++ ", found " ++ describeFound found
  | .expectedNumber found => "expected number, found " ++ describeFound found
  | .expectedColor found => "expected color, found " ++ describeFound found
  | .expectedFont found => "expected font name or size, found " ++ describeFound found
  | .expectedTransform => "expected rotate(...), scale(...) or translate(...)"
  | .leftOver found => "unexpected " ++ describeFound found
  | .badHexColor text => "invalid hex color '" ++ text ++ "'"
  | .unknownColor name => "unknown color '" ++ name ++ "'"
  | .unknownColorFunction name => "unknown color function '" ++ name ++ "'"
  | .channelCount expected found =>
    "expected " ++ toString expected ++ " components, got " ++ toString found
  | .unknownTextStyle name => "unknown text style '" ++ name ++ "'"
  | .unknownFontFunction name => "unknown font function '" ++ name ++ "'"
  | .badPercentage => "malformed percentage"
  | .componentCount found => "unsupported number of components: " ++ toString found
  | .badFigure error => error.message
  | .argumentCount function found =>
    "wrong number of arguments to " ++ function ++ ": " ++ toString found
  | .unknownTransform name => "unknown transform function '" ++ name ++ "'"
  | .unterminatedKeyword => "unterminated quoted keyword"
  | .noKeyword => "expected at least one keyword"
  | .refused words => words

/-- Why a text cannot be read as a value of a type. -/
inductive ValueError where
  /-- No reader is registered for the type. -/
  | unknownType (type : ValueType)
  /-- A reader is already registered for the type. -/
  | duplicateType (type : ValueType)
  | invalid (type : ValueType) (flaw : Flaw)
  /-- At the byte offset `position` stands no token. -/
  | noToken (type : ValueType) (position : Nat)
  deriving DecidableEq

def ValueError.message : ValueError → String
  | .unknownType type => "no parser registered for property type " ++ type.name
  | .duplicateType type => "a parser is already registered for property type " ++ type.name
  | .invalid type flaw => "invalid " ++ type.name ++ " value: " ++ flaw.message
  | .noToken type position =>
    "unrecognized character at byte " ++ toString position ++ " in " ++ type.name ++ " value"

end Stylebook
