import Stylebook.Text.Bytes

/-!
# Tokens

The words of style text. A token has a kind, the characters it covers, the byte offset where it
starts, and a mark that says whether it starts exactly where the token before it ended: blanks are no
tokens, so this mark is all that is left of them.
-/

set_option autoImplicit false

namespace Stylebook

/-- The kinds of tokens. -/
inductive TokenKind where
  /-- A number sign with three to eight hexadecimal digits. -/
  | hexColor
  /-- A number with a unit or a percent sign. -/
  | dimension
  /-- Text between double quotes, with backslash escapes. -/
  | doubleQuoted
  /-- Text between single quotes, with backslash escapes. -/
  | singleQuoted
  /-- The name of a style variable behind an at sign or two dashes. -/
  | reference
  /-- A number with optional sign and fraction. -/
  | number
  /-- A name. -/
  | ident
  | braceOpen
  | braceClose
  | parenOpen
  | parenClose
  | colon
  | semicolon
  | comma
  | dot
  | hash
  | star
  | greaterThan
  | pipe
  deriving Repr, DecidableEq

def TokenKind.name : TokenKind → String
  | .hexColor => "HexColor"
  | .dimension => "Dimension"
  | .doubleQuoted => "StringLiteral"
  | .singleQuoted => "StringLiteralSingle"
  | .reference => "Variable"
  | .number => "Number"
  | .ident => "Ident"
  | .braceOpen => "BraceOpen"
  | .braceClose => "BraceClose"
  | .parenOpen => "ParenOpen"
  | .parenClose => "ParenClose"
  | .colon => "Colon"
  | .semicolon => "Semicolon"
  | .comma => "Comma"
  | .dot => "Dot"
  | .hash => "Hash"
  | .star => "Star"
  | .greaterThan => "GreaterThan"
  | .pipe => "Pipe"

def TokenKind.all : List TokenKind :=
  [.hexColor, .dimension, .doubleQuoted, .singleQuoted, .reference, .number, .ident, .braceOpen,
   .braceClose, .parenOpen, .parenClose, .colon, .semicolon, .comma, .dot, .hash, .star, .greaterThan,
   .pipe]

def TokenKind.isQuoted (k : TokenKind) : Bool :=
  k == .doubleQuoted || k == .singleQuoted

/-- A word of style text. -/
structure Token where
  kind : TokenKind
  chars : List Char
  /-- Byte offset of the first character. -/
  start : Nat
  /-- Whether the token starts where the one before it ended. -/
  joined : Bool
  deriving Repr, DecidableEq

def Token.text (t : Token) : String :=
  String.ofList t.chars

/-- Byte offset just behind the last character. -/
def Token.stop (t : Token) : Nat :=
  t.start + Text.byteSize t.chars

end Stylebook
