import Stylebook.Text.Alphanumeric
import Stylebook.Text.CaseRanges
import Stylebook.Text.CaseRuns

/-!
# Lower case

`lowerChar` is the small form of one character, which takes two characters for the dotted capital I
and one for every other. `lower` folds a whole text: it agrees with `lowerChar` on each character
except the capital sigma, whose small form at the end of a word is the final one. A sigma ends a word
when, looking through case-ignorable characters, a cased character stands before it and none after.

`asciiLower` changes the letters `A` to `Z` only.
-/

set_option autoImplicit false

namespace Stylebook.Text

/-- The run that holds the code point `n`, if `n` is a capital of the table. -/
def caseRun? (n : Nat) : Option CaseRun :=
  caseRuns.find? fun r => r.first ≤ n && n ≤ r.last && (n - r.first) % r.step == 0

/-- The small form of one character. -/
def lowerChar (c : Char) : List Char :=
  if c.toNat < 128 then [c.toLower]
  else if c.toNat = 0x130 then ['i', '\u0307']
  else match caseRun? c.toNat with
    | some r => [Char.ofNat (c.toNat + r.shift).toNat]
    | none => [c]

/-- Characters that have a case. -/
def isCased (c : Char) : Bool :=
  if c.toNat < 128 then c.isAlpha else inRanges casedRanges c.toNat

/-- Characters that the final sigma rule looks through. -/
def isCaseIgnorable (c : Char) : Bool :=
  if c.toNat < 128 then ['\'', '.', ':', '^', '`'].contains c
  else inRanges caseIgnorableRanges c.toNat

/-- Whether the first character that is not case-ignorable exists and is cased. -/
def startsCased (cs : List Char) : Bool :=
  match cs.dropWhile isCaseIgnorable with
  | [] => false
  | c :: _ => isCased c

/-- Lower case of a text, where `before` is what precedes it, last character first. -/
def lowerAfter (before : List Char) : List Char → List Char
  | [] => []
  | c :: cs =>
    let small :=
      if c = 'Σ' then [if startsCased before && !startsCased cs then 'ς' else 'σ'] else lowerChar c
    small ++ lowerAfter (c :: before) cs

/-- Lower case of a whole text. -/
def lower (cs : List Char) : List Char :=
  lowerAfter [] cs

/-- Lower case of the ASCII letters of a text. -/
def asciiLower (cs : List Char) : List Char :=
  cs.map Char.toLower

/-- Whether two texts differ at most in the case of their ASCII letters. -/
def sameIgnoringCase (a b : List Char) : Bool :=
  asciiLower a == asciiLower b

end Stylebook.Text
