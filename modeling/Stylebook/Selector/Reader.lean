import Stylebook.ParseError
import Stylebook.Selector.Basic
import Stylebook.Token.Lexer

/-!
# Reading selectors

Blanks are not among the tokens, so a compound is told from a chain by the mark that says whether a
token starts where the one before it ended. A point, a number sign or a colon must be followed directly
by a name. An identifier whose name happens to consist of hexadecimal digits arrives as a colour token
and is read as an identifier.

A chain goes on at a greater-than sign, or at a token that can start a compound and was not joined to
the one before; a colour token is not among these, so `a #abc` is refused where `a #xyz` is accepted.
-/

set_option autoImplicit false

namespace Stylebook

/-- The name directly behind a mark. -/
def Simple.readName (mark : Char) : List Token → Except ParseError (String × List Token)
  | [] => .error (.endOfInput (.nameAfter mark))
  | t :: rest =>
    if t.kind = .ident ∧ t.joined = true then .ok (t.text, rest)
    else .error (.at t (.nameAfter mark))

/-- Reads the simple selector that starts with the token `t`, with `ts` behind it; none if no simple
selector starts with `t`. -/
def Simple.read (t : Token) (ts : List Token) : Except ParseError (Option (Simple × List Token)) :=
  match t.kind with
  | .ident => .ok (some (.element t.text, ts))
  | .star => .ok (some (.universal, ts))
  | .hexColor => .ok (some (.identifier (String.ofList (t.chars.drop 1)), ts))
  | .dot => (readName '.' ts).map fun (name, rest) => some (.className name, rest)
  | .hash => (readName '#' ts).map fun (name, rest) => some (.identifier name, rest)
  | .colon => (readName ':' ts).map fun (name, rest) => some (.pseudo name, rest)
  | _ => .ok none

/-- Kinds of tokens that go on with a compound when they are joined to it. -/
def TokenKind.extendsCompound (k : TokenKind) : Bool :=
  k == .dot || k == .hash || k == .hexColor || k == .colon

/-- Kinds of tokens that start a further compound of a chain. -/
def TokenKind.startsCompound (k : TokenKind) : Bool :=
  k == .ident || k == .hash || k == .dot || k == .star || k == .colon

theorem Simple.readName_length {mark : Char} {ts rest : List Token} {name : String}
    (h : readName mark ts = .ok (name, rest)) : rest.length < ts.length := by
  cases ts with
  | nil => simp [readName] at h
  | cons t us =>
    simp only [readName] at h
    split at h
    · cases h; simp
    · cases h

/-- A simple selector takes at least its first token. -/
theorem Simple.read_length {t : Token} {ts rest : List Token} {s : Simple}
    (h : read t ts = .ok (some (s, rest))) : rest.length ≤ ts.length := by
  have key : ∀ (mark : Char) (make : String → Simple),
      (readName mark ts).map (fun (name, r) => some (make name, r)) = .ok (some (s, rest)) →
        rest.length ≤ ts.length := by
    intro mark make hm
    cases hr : readName mark ts with
    | error e => simp [hr, Except.map] at hm
    | ok p =>
      simp only [hr, Except.map, Except.ok.injEq, Option.some.injEq, Prod.mk.injEq] at hm
      have := readName_length hr
      rw [← hm.2]
      exact Nat.le_of_lt this
  unfold read at h
  split at h
  · cases h; exact Nat.le_refl _
  · cases h; exact Nat.le_refl _
  · cases h; exact Nat.le_refl _
  · exact key _ _ h
  · exact key _ _ h
  · exact key _ _ h
  · cases h

/-- The simple selectors that are joined to what was read before. -/
def Compound.readTail : List Token → Except ParseError (List Simple × List Token)
  | [] => .ok ([], [])
  | t :: ts =>
    if t.joined && t.kind.extendsCompound then
      match _h : Simple.read t ts with
      | .error e => .error e
      | .ok none => .ok ([], t :: ts)
      | .ok (some (s, rest)) =>
        match readTail rest with
        | .error e => .error e
        | .ok (more, rest) => .ok (s :: more, rest)
    else .ok ([], t :: ts)
  termination_by ts => ts.length
  decreasing_by have := Simple.read_length _h; simp only [List.length_cons]; omega

def Compound.read : List Token → Except ParseError (Compound × List Token)
  | [] => .error (.endOfInput .selectorPart)
  | t :: ts =>
    match Simple.read t ts with
    | .error e => .error e
    | .ok none => .error (.at t .selectorPart)
    | .ok (some (s, rest)) =>
      match readTail rest with
      | .error e => .error e
      | .ok (more, rest) => .ok (⟨s, more⟩, rest)

theorem Compound.readTail_length {ts rest : List Token} {more : List Simple}
    (h : readTail ts = .ok (more, rest)) : rest.length ≤ ts.length := by
  fun_induction readTail ts generalizing more rest with
  | case1 => cases h; exact Nat.le_refl _
  | case2 => cases h
  | case3 => cases h; exact Nat.le_refl _
  | case4 => cases h
  | case5 t ts _ s r hr m r' hm ih =>
    cases h
    have := ih hm
    have := Simple.read_length hr
    simp only [List.length_cons]; omega
  | case6 => cases h; exact Nat.le_refl _

/-- A compound takes at least one token. -/
theorem Compound.read_length {ts rest : List Token} {c : Compound}
    (h : read ts = .ok (c, rest)) : rest.length < ts.length := by
  cases ts with
  | nil => simp [read] at h
  | cons t us =>
    simp only [read] at h
    split at h
    · cases h
    · cases h
    · rename_i s r hr
      split at h
      · cases h
      · rename_i m r' hm
        cases h
        have := readTail_length hm
        have := Simple.read_length hr
        simp only [List.length_cons]; omega

/-- The further compounds of a chain. -/
def Selector.readTail : List Token → Except ParseError (List (Combinator × Compound) × List Token)
  | [] => .ok ([], [])
  | t :: ts =>
    if t.kind = .greaterThan then
      match _h : Compound.read ts with
      | .error e => .error e
      | .ok (c, rest) =>
        match readTail rest with
        | .error e => .error e
        | .ok (more, rest) => .ok ((.child, c) :: more, rest)
    else if t.kind.startsCompound then
      match _h : Compound.read (t :: ts) with
      | .error e => .error e
      | .ok (c, rest) =>
        match readTail rest with
        | .error e => .error e
        | .ok (more, rest) => .ok ((.descendant, c) :: more, rest)
    else .ok ([], t :: ts)
  termination_by ts => ts.length
  decreasing_by
    · have := Compound.read_length _h; simp only [List.length_cons]; omega
    · have := Compound.read_length _h; simpa using this

def Selector.read (ts : List Token) : Except ParseError (Selector × List Token) :=
  match Compound.read ts with
  | .error e => .error e
  | .ok (c, rest) =>
    match readTail rest with
    | .error e => .error e
    | .ok (more, rest) => .ok (⟨c, more⟩, rest)

/-- Reads a text that is one selector. -/
def Selector.parse (text : String) : Except ParseError Selector :=
  match read (Lexer.tokens text.toList) with
  | .error e => .error e
  | .ok (s, []) => .ok s
  | .ok (_, t :: _) => .error (.at t .endOfSelector)

theorem Selector.readTail_length {ts rest : List Token} {more : List (Combinator × Compound)}
    (h : readTail ts = .ok (more, rest)) : rest.length ≤ ts.length := by
  fun_induction readTail ts generalizing more rest with
  | case1 => cases h; exact Nat.le_refl _
  | case2 => cases h
  | case3 => cases h
  | case4 t ts _ c r hr m r' hm ih =>
    cases h
    have := ih hm
    have := Compound.read_length hr
    simp only [List.length_cons]; omega
  | case5 => cases h
  | case6 => cases h
  | case7 t ts _ _ c r hr m r' hm ih =>
    cases h
    have := ih hm
    have := Compound.read_length hr
    omega
  | case8 => cases h; exact Nat.le_refl _

/-- A selector takes at least one token. -/
theorem Selector.read_length {ts rest : List Token} {s : Selector}
    (h : read ts = .ok (s, rest)) : rest.length < ts.length := by
  unfold read at h
  split at h
  · cases h
  · rename_i c r hr
    split at h
    · cases h
    · rename_i m r' hm
      cases h
      have := readTail_length hm
      have := Compound.read_length hr
      omega

end Stylebook
