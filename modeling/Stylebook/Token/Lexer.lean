import Stylebook.Token.Basic

/-!
# Cutting text into tokens

`scan` cuts a text into pieces that follow each other without a gap: tokens, single characters that are
skipped, and faults. At each place the longest token that starts there is taken. Where none starts, the
fault is one character long, except that a quoted text which cannot be completed swallows what was read
of it: all the rest if the closing quote is missing, and all up to and including a backslash that stands
directly before a line feed.

A number gives back what it cannot use: a point without digits behind it is not part of it.

`tokens` drops the faults, `tokensStrict` refuses the text and names the offset of the first one.
-/

set_option autoImplicit false

namespace Stylebook.Lexer

/-! ## Character classes -/

/-- Blank, tab, line feed, carriage return and form feed separate tokens and are nothing else. -/
def isSkipped (c : Char) : Bool :=
  c == ' ' || c == '\t' || c == '\n' || c == '\r' || c == '\x0c'

def isNameStart (c : Char) : Bool :=
  c.isAlpha || c == '_'

def isNameChar (c : Char) : Bool :=
  c.isAlphanum || c == '_' || c == '-'

def isHexDigit (c : Char) : Bool :=
  c.isDigit || ('a' ≤ c && c ≤ 'f') || ('A' ≤ c && c ≤ 'F')

/-! ## Lengths of the longest matches -/

/-- Length of the longest run of characters of class `p` at the start. -/
def run (p : Char → Bool) (cs : List Char) : Nat :=
  (cs.takeWhile p).length

/-- Length of a name at the start, zero if none starts here. -/
def nameLength : List Char → Nat
  | [] => 0
  | c :: cs => if isNameStart c then 1 + run isNameChar cs else 0

/-- Length of a fraction at the start: a point and at least one digit, else nothing. -/
def fractionLength : List Char → Nat
  | '.' :: cs => if run Char.isDigit cs = 0 then 0 else 1 + run Char.isDigit cs
  | _ => 0

/-- Length of a unit at the start: a percent sign or letters. -/
def unitLength : List Char → Nat
  | '%' :: _ => 1
  | cs => run Char.isAlpha cs

/-- Kind and length of an unsigned number, with or without a unit, at the start. -/
def numeral? (cs : List Char) : Option (TokenKind × Nat) :=
  let whole := run Char.isDigit cs
  if whole = 0 then none
  else
    let number := whole + fractionLength (cs.drop whole)
    let unit := unitLength (cs.drop number)
    some (if unit = 0 then (.number, number) else (.dimension, number + unit))

/-- How far a quoted text reaches behind its opening quote `q`, and whether it is completed. -/
def quotedLength (q : Char) : List Char → Bool × Nat
  | [] => (false, 0)
  | '\\' :: cs =>
    match cs with
    | [] => (false, 1)
    | c :: rest =>
      if c = '\n' then (false, 1)
      else
        let (closed, n) := quotedLength q rest
        (closed, n + 2)
  | c :: cs =>
    if c = q then (true, 1)
    else
      let (closed, n) := quotedLength q cs
      (closed, n + 1)

/-- Kinds that consist of one character. -/
def punctuation? : Char → Option TokenKind
  | '\x7b' => some .braceOpen
  | '\x7d' => some .braceClose
  | '(' => some .parenOpen
  | ')' => some .parenClose
  | ':' => some .colon
  | ';' => some .semicolon
  | ',' => some .comma
  | '.' => some .dot
  | '#' => some .hash
  | '*' => some .star
  | '>' => some .greaterThan
  | '|' => some .pipe
  | _ => none

/-- A quoted text with its opening quote `q`: its kind if it is completed, and its length behind the
opening quote. -/
def quotedFrom (q : Char) (kind : TokenKind) (cs : List Char) : Option TokenKind × Nat :=
  let (closed, n) := quotedLength q cs
  (if closed then some kind else none, n)

/-- A variable's name behind a mark of `mark` further characters, if one starts in `cs`. -/
def referenceFrom (mark : Nat) (cs : List Char) : Option TokenKind × Nat :=
  match nameLength cs with
  | 0 => (none, 0)
  | n => (some .reference, mark + n)

/-- What starts with the character `c`, which is not skipped, when `cs` follows: the kind of the
longest token, or none for a fault, and the number of characters it takes from `cs`. -/
def recognize (c : Char) (cs : List Char) : Option TokenKind × Nat :=
  if c = '"' then quotedFrom '"' .doubleQuoted cs
  else if c = '\'' then quotedFrom '\'' .singleQuoted cs
  else if c = '@' then referenceFrom 0 cs
  else if c = '#' then
    let digits := min 8 (run isHexDigit cs)
    if digits < 3 then (some .hash, 0) else (some .hexColor, digits)
  else if isNameStart c then (some .ident, run isNameChar cs)
  else if c.isDigit then
    match numeral? (c :: cs) with
    | some (kind, n) => (some kind, n - 1)
    | none => (none, 0)
  else if c = '+' ∨ c = '-' then
    match numeral? cs with
    | some (kind, n) => (some kind, n)
    | none =>
      match c, cs with
      | '-', '-' :: name => referenceFrom 1 name
      | _, _ => (none, 0)
  else (punctuation? c, 0)

/-! ## Pieces -/

/-- What a piece of text is. -/
inductive PieceKind where
  | token (kind : TokenKind)
  | skipped
  | fault
  deriving Repr, DecidableEq

/-- A piece of text: what it is, its characters, and the byte offset where it starts. -/
structure Piece where
  kind : PieceKind
  chars : List Char
  start : Nat
  deriving Repr, DecidableEq

/-- The first piece of a text that is not empty: its kind, and how many characters it takes behind the
first. -/
def firstPiece (c : Char) (cs : List Char) : PieceKind × Nat :=
  if isSkipped c then (.skipped, 0)
  else match recognize c cs with
    | (some kind, n) => (.token kind, n)
    | (none, n) => (.fault, n)

/-- The pieces of a text that starts at the byte offset `start`. -/
def scan (start : Nat) : List Char → List Piece
  | [] => []
  | c :: cs =>
    let (kind, n) := firstPiece c cs
    let chars := c :: cs.take n
    ⟨kind, chars, start⟩ :: scan (start + Text.byteSize chars) (cs.drop n)
  termination_by cs => cs.length
  decreasing_by simp only [List.length_drop, List.length_cons]; omega

/-! ## Tokens -/

/-- The tokens among the pieces; `previous` is the end of the token before them, if there is one. -/
def tokensOf (previous : Option Nat) : List Piece → List Token
  | [] => []
  | p :: ps =>
    match p.kind with
    | .token kind =>
      let t : Token := ⟨kind, p.chars, p.start, previous == some p.start⟩
      t :: tokensOf (some t.stop) ps
    | _ => tokensOf previous ps

/-- The tokens of a text; what is no token is passed over. -/
def tokens (cs : List Char) : List Token :=
  tokensOf none (scan 0 cs)

/-- The offset of the first fault of a text. -/
def firstFault? (cs : List Char) : Option Nat :=
  ((scan 0 cs).find? (·.kind == .fault)).map (·.start)

/-- The tokens of a text without faults, or the offset of the first fault. -/
def tokensStrict (cs : List Char) : Except Nat (List Token) :=
  match firstFault? cs with
  | some offset => .error offset
  | none => .ok (tokens cs)

end Stylebook.Lexer
