import Stylebook.Content.Basic
import Stylebook.Content.Comments
import Stylebook.Reference
import Stylebook.Selector.Reader
import Stylebook.Text.Blank

/-!
# Reading style sheets

The text without its comments is cut into tokens, and what is no token is passed over. The tokens carry
the structure: variable definitions, and rules with a list of selectors and a block of declarations.
The value behind a colon is not made of tokens: it is the text up to the next semicolon or closing brace
outside quotes, without blanks at its ends. Reading goes on at the first token behind that text.

A definition inside a block is a definition of the whole sheet. Positions in errors count bytes of the
text without comments.
-/

set_option autoImplicit false

namespace Stylebook

/-- The raw text behind the colon `colon` in `source`. -/
def rawBehind (source : List Char) (colon : Token) : List Char :=
  rawPart ((Text.dropBytes? source colon.stop).getD [])

/-- The tokens from the byte offset `stop` on, one semicolon at their start left out. -/
def resumeAt (stop : Nat) (ts : List Token) : List Token :=
  match ts.dropWhile (·.start < stop) with
  | [] => []
  | t :: rest => if t.kind = .semicolon then rest else t :: rest

/-- Reads the value behind a colon. -/
def readValue (source : List Char) (colon : Token) (ts : List Token) :
    Except ParseError (String × List Token) :=
  match Text.trim (rawBehind source colon) with
  | [] => .error (.emptyValue colon.stop)
  | value =>
    .ok (String.ofList value, resumeAt (colon.stop + Text.byteSize (rawBehind source colon)) ts)

/-- Reads a colon and the value behind it. -/
def readColonValue (source : List Char) (ts : List Token) :
    Except ParseError (String × List Token) :=
  match Token.expect .colon ts with
  | .error e => .error e
  | .ok (colon, rest) => readValue source colon rest

/-- Reads the declaration that starts with the token `t`. -/
def Declaration.read (source : List Char) (t : Token) (ts : List Token) :
    Except ParseError (Declaration × List Token) :=
  if t.kind = .ident then
    (readColonValue source ts).map fun (value, rest) => (⟨t.text, value⟩, rest)
  else .error (.at t .propertyName)

theorem resumeAt_length (stop : Nat) (ts : List Token) : (resumeAt stop ts).length ≤ ts.length := by
  have h := (List.dropWhile_suffix (fun t : Token => decide (t.start < stop)) (l := ts)).length_le
  unfold resumeAt
  split
  · exact Nat.zero_le _
  · rename_i t rest heq
    simp only [heq, List.length_cons] at h
    split
    · omega
    · simpa using h

/-- A value takes at least its colon. -/
theorem readColonValue_length {source : List Char} {ts rest : List Token} {value : String}
    (h : readColonValue source ts = .ok (value, rest)) : rest.length < ts.length := by
  unfold readColonValue at h
  split at h
  · cases h
  · rename_i colon r hc
    obtain ⟨rfl, _⟩ := Token.expect_eq_ok_iff.1 hc
    unfold readValue at h
    split at h
    · cases h
    · cases h
      have := resumeAt_length (colon.stop + Text.byteSize (rawBehind source colon)) r
      simp only [List.length_cons]; omega

theorem Declaration.read_length {source : List Char} {t : Token} {ts rest : List Token}
    {d : Declaration} (h : Declaration.read source t ts = .ok (d, rest)) :
    rest.length < ts.length := by
  unfold Declaration.read at h
  split at h
  · cases hv : readColonValue source ts with
    | error e => simp [hv, Except.map] at h
    | ok p =>
      simp only [hv, Except.map, Except.ok.injEq, Prod.mk.injEq] at h
      rw [← h.2]
      exact readColonValue_length hv
  · cases h

/-- Reads the selectors of a rule, separated by commas, with at least one. -/
def readSelectors (ts : List Token) : Except ParseError (List Selector × List Token) :=
  match _h : Selector.read ts with
  | .error e => .error e
  | .ok (s, []) => .ok ([s], [])
  | .ok (s, t :: rest) =>
    if t.kind = .comma then
      match readSelectors rest with
      | .error e => .error e
      | .ok (more, rest) => .ok (s :: more, rest)
    else .ok ([s], t :: rest)
  termination_by ts.length
  decreasing_by have := Selector.read_length _h; simp only [List.length_cons] at this; omega

theorem readSelectors_length {ts rest : List Token} {ss : List Selector}
    (h : readSelectors ts = .ok (ss, rest)) : rest.length < ts.length := by
  fun_induction readSelectors ts generalizing ss rest with
  | case1 => cases h
  | case2 ts s hs => cases h; exact Selector.read_length hs
  | case3 => cases h
  | case4 ts s t r hs _ more r' hm ih =>
    cases h
    have := ih hm
    have := Selector.read_length hs
    simp only [List.length_cons] at this; omega
  | case5 ts s t r hs _ => cases h; exact Selector.read_length hs

/-- What a block holds: its declarations, and the definitions it makes for the whole sheet. -/
structure Block where
  declarations : List Declaration
  definitions : List (String × String)

/-- Reads a block up to and including its closing brace. -/
def Block.read (source : List Char) : List Token → Except ParseError (Block × List Token)
  | [] => .error (.endOfInput (.token .braceClose))
  | t :: ts =>
    match t.kind with
    | .braceClose => .ok (⟨[], []⟩, ts)
    | .semicolon => read source ts
    | .reference =>
      match _h : readColonValue source ts with
      | .error e => .error e
      | .ok (value, rest) =>
        match read source rest with
        | .error e => .error e
        | .ok (b, rest) =>
          .ok (⟨b.declarations, (String.ofList (Reference.bare t.chars), value) :: b.definitions⟩, rest)
    | _ =>
      match _h : Declaration.read source t ts with
      | .error e => .error e
      | .ok (d, rest) =>
        match read source rest with
        | .error e => .error e
        | .ok (b, rest) => .ok (⟨d :: b.declarations, b.definitions⟩, rest)
  termination_by ts => ts.length
  decreasing_by
    · simp
    · have := readColonValue_length _h; simp only [List.length_cons]; omega
    · have := Declaration.read_length _h; simp only [List.length_cons]; omega

theorem Block.read_length {source : List Char} {ts rest : List Token} {b : Block}
    (h : Block.read source ts = .ok (b, rest)) : rest.length < ts.length := by
  fun_induction Block.read source ts generalizing b rest with
  | case1 => cases h
  | case2 => cases h; simp
  | case3 t ts _ ih => have := ih h; simp only [List.length_cons]; omega
  | case4 => cases h
  | case5 => cases h
  | case6 t ts _ value r hv b' r' hb ih =>
    cases h
    have := ih hb
    have := readColonValue_length hv
    simp only [List.length_cons]; omega
  | case7 => cases h
  | case8 => cases h
  | case9 t ts d r hd b' r' hb _ _ _ ih =>
    cases h
    have := ih hb
    have := Declaration.read_length hd
    simp only [List.length_cons]; omega

/-- Reads a rule, with the definitions its block makes. -/
def Rule.read (source : List Char) (ts : List Token) :
    Except ParseError ((Rule × List (String × String)) × List Token) :=
  match readSelectors ts with
  | .error e => .error e
  | .ok (selectors, rest) =>
    match Token.expect .braceOpen rest with
    | .error e => .error e
    | .ok (_, rest) =>
      match Block.read source rest with
      | .error e => .error e
      | .ok (b, rest) => .ok ((⟨selectors, b.declarations⟩, b.definitions), rest)

theorem Rule.read_length {source : List Char} {ts rest : List Token}
    {r : Rule × List (String × String)} (h : Rule.read source ts = .ok (r, rest)) :
    rest.length < ts.length := by
  unfold Rule.read at h
  split at h
  · cases h
  · rename_i ss r1 h1
    split at h
    · cases h
    · rename_i t r2 h2
      obtain ⟨rfl, _⟩ := Token.expect_eq_ok_iff.1 h2
      split at h
      · cases h
      · rename_i b r3 h3
        cases h
        have := readSelectors_length h1
        have := Block.read_length h3
        simp only [List.length_cons] at *; omega

/-- Adds a rule and the definitions of its block. -/
def Content.addBlock (c : Content) (rule : Rule) (definitions : List (String × String)) : Content :=
  definitions.foldl (fun c d => c.define d.1 d.2) (c.addRule rule)

/-- Reads tokens to their end, on top of the content read so far. -/
def Content.readOnto (source : List Char) (c : Content) (ts : List Token) :
    Except ParseError Content :=
  match ts with
  | [] => .ok c
  | t :: ts =>
    match t.kind with
    | .semicolon => readOnto source c ts
    | .reference =>
      match _h : readColonValue source ts with
      | .error e => .error e
      | .ok (value, rest) =>
        readOnto source (c.define (String.ofList (Reference.bare t.chars)) value) rest
    | _ =>
      match _h : Rule.read source (t :: ts) with
      | .error e => .error e
      | .ok ((rule, definitions), rest) => readOnto source (c.addBlock rule definitions) rest
  termination_by ts.length
  decreasing_by
    · simp
    · have := readColonValue_length _h; simp only [List.length_cons]; omega
    · exact Rule.read_length _h

def Content.parse (text : String) : Except ParseError Content :=
  let source := stripComments text.toList
  readOnto source .empty (Lexer.tokens source)

end Stylebook
