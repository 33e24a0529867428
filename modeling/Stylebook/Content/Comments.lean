/-!
# Comments and quotes in style text

A comment runs from a slash and a star to the next star and slash, or to the end of the text if there
is none; `stripComments` puts one blank in its place. Inside quotes nothing is a comment. The quotes of
this scan know no escapes: a quote is closed by the next quote of the same kind, whatever stands before
it. `rawLength` finds the end of a raw value by the same reading of quotes.
-/

set_option autoImplicit false

namespace Stylebook

/-- The quotation a scan is in after a character, when `quote` is the open quote before it. -/
def quoteAfter (quote : Option Char) (c : Char) : Option Char :=
  match quote with
  | none => if c = '"' ∨ c = '\'' then some c else none
  | some q => if c = q then none else some q

/-- What follows the first star and slash; nothing if there is none. -/
def afterComment : List Char → List Char
  | '*' :: '/' :: cs => cs
  | _ :: cs => afterComment cs
  | [] => []

theorem afterComment_length (cs : List Char) : (afterComment cs).length ≤ cs.length := by
  fun_induction afterComment cs with
  | case1 cs => simp only [List.length_cons]; omega
  | case2 c cs _ ih => simp only [List.length_cons]; omega
  | case3 => exact Nat.le_refl _

/-- The text with each comment replaced by a blank, when `quote` is open at its start. -/
def stripFrom (quote : Option Char) : List Char → List Char
  | [] => []
  | c :: cs =>
    if quote.isNone && c == '/' && cs.head? == some '*' then
      ' ' :: stripFrom quote (afterComment (cs.drop 1))
    else c :: stripFrom (quoteAfter quote c) cs
  termination_by cs => cs.length
  decreasing_by
    · have h := afterComment_length (cs.drop 1)
      simp only [List.length_drop] at h
      simp only [List.length_cons]; omega
    · simp

/-- The text with each comment outside quotes replaced by a blank. -/
def stripComments (cs : List Char) : List Char :=
  stripFrom none cs

/-- Number of characters before the first semicolon or closing brace outside quotes. -/
def rawLength (quote : Option Char) : List Char → Nat
  | [] => 0
  | c :: cs =>
    if quote.isNone && (c == ';' || c == '\x7d') then 0
    else 1 + rawLength (quoteAfter quote c) cs

/-- The text before the first semicolon or closing brace outside quotes. -/
def rawPart (cs : List Char) : List Char :=
  cs.take (rawLength none cs)

end Stylebook
