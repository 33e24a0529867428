import Stylebook.Proofs.Selector.Written
import Stylebook.Proofs.Token.Blanks

/-!
# What a selector is read from

A reader takes tokens from the front of a list and leaves the others. Three things are said of each of the readers of
selectors, always in the same words:

* `_suffix`: what it leaves is the end of what it was given;
* `_append`: where it stopped, it stops as well if more tokens follow. At the end of its list it does so only if the next
  token does not go on with a selector (`Closes`);
* `_shift`: it does the same at another place, and its errors are at that place.

In addition, no reader asks whether its first token is joined to the one before (`_rejoin`). Together they say that a
selector is read from its own tokens and the kind of the next one, and from nothing else.
-/

set_option autoImplicit false

namespace Stylebook

open Lexer

/-! ## Readers, one step at a time

The readers as they recurse, in the form of one step each. -/

theorem Compound.readTail_eq (t : Token) (ts : List Token) :
    readTail (t :: ts) =
      if t.joined && t.kind.extendsCompound then
        (Simple.read t ts).bind fun
          | none => .ok ([], t :: ts)
          | some (s, rest) => (readTail rest).bind fun (more, rest) => .ok (s :: more, rest)
      else .ok ([], t :: ts) := by
  rw [readTail]
  split
  · split <;> simp_all [Except.bind]
    split <;> simp_all
  · rfl

theorem Compound.read_eq (t : Token) (ts : List Token) :
    read (t :: ts) = (Simple.read t ts).bind fun
      | none => .error (.at t .selectorPart)
      | some (s, rest) => (readTail rest).bind fun (more, rest) => .ok (⟨s, more⟩, rest) := by
  rw [read]
  split <;> simp_all [Except.bind]
  split <;> simp_all

theorem Selector.readTail_eq (t : Token) (ts : List Token) :
    readTail (t :: ts) =
      if t.kind = .greaterThan then
        (Compound.read ts).bind fun (c, rest) =>
          (readTail rest).bind fun (more, rest) => .ok ((.child, c) :: more, rest)
      else if t.kind.startsCompound then
        (Compound.read (t :: ts)).bind fun (c, rest) =>
          (readTail rest).bind fun (more, rest) => .ok ((.descendant, c) :: more, rest)
      else .ok ([], t :: ts) := by
  rw [readTail]
  split
  · split <;> simp_all [Except.bind]
    split <;> simp_all
  · split
    · split <;> simp_all [Except.bind]
      split <;> simp_all
    · rfl

theorem Selector.read_eq (ts : List Token) :
    read ts =
      (Compound.read ts).bind fun (c, rest) => (readTail rest).bind fun (more, rest) => .ok (⟨c, more⟩, rest) := by
  rw [read]
  split <;> simp_all [Except.bind]
  split <;> simp_all

/-! ## What is left is the end of what was given -/

theorem Simple.readName_suffix {mark : Char} {ts rest : List Token} {name : String}
    (h : readName mark ts = .ok (name, rest)) : rest <:+ ts := by
  cases ts with
  | nil => cases h
  | cons t ts =>
    simp only [readName] at h
    split at h
    · cases h
      exact List.suffix_cons ..
    · cases h

theorem Simple.read_suffix {t : Token} {ts rest : List Token} {s : Simple}
    (h : read t ts = .ok (some (s, rest))) : rest <:+ ts := by
  have named {mark : Char} {make : String → Simple}
      (h : (readName mark ts).map (fun p => some (make p.1, p.2)) = .ok (some (s, rest))) : rest <:+ ts := by
    cases found : readName mark ts with
    | error e => simp [found, Except.map] at h
    | ok p =>
      simp only [found, Except.map, Except.ok.injEq, Option.some.injEq, Prod.mk.injEq] at h
      exact h.2 ▸ readName_suffix found
  unfold read at h
  split at h
  · cases h; exact List.suffix_rfl
  · cases h; exact List.suffix_rfl
  · cases h; exact List.suffix_rfl
  · exact named h
  · exact named h
  · exact named h
  · cases h

theorem Compound.readTail_suffix {ts rest : List Token} {more : List Simple}
    (h : readTail ts = .ok (more, rest)) : rest <:+ ts := by
  fun_induction readTail ts generalizing more rest with
  | case1 => cases h; exact List.suffix_rfl
  | case2 => cases h
  | case3 => cases h; exact List.suffix_rfl
  | case4 => cases h
  | case5 t ts _ s r found m r' tail ih =>
    cases h
    exact (ih tail).trans ((Simple.read_suffix found).trans (List.suffix_cons ..))
  | case6 => cases h; exact List.suffix_rfl

theorem Compound.read_suffix {ts rest : List Token} {c : Compound} (h : read ts = .ok (c, rest)) : rest <:+ ts := by
  cases ts with
  | nil => cases h
  | cons t ts =>
    simp only [read] at h
    split at h
    · cases h
    · cases h
    · rename_i found
      split at h
      · cases h
      · rename_i tail
        cases h
        exact (readTail_suffix tail).trans ((Simple.read_suffix found).trans (List.suffix_cons ..))

theorem Selector.readTail_suffix {ts rest : List Token} {more : List (Combinator × Compound)}
    (h : readTail ts = .ok (more, rest)) : rest <:+ ts := by
  fun_induction readTail ts generalizing more rest with
  | case1 => cases h; exact List.suffix_rfl
  | case2 => cases h
  | case3 => cases h
  | case4 t ts _ c r found m r' tail ih =>
    cases h
    exact (ih tail).trans ((Compound.read_suffix found).trans (List.suffix_cons ..))
  | case5 => cases h
  | case6 => cases h
  | case7 t ts _ _ c r found m r' tail ih =>
    cases h
    exact (ih tail).trans (Compound.read_suffix found)
  | case8 => cases h; exact List.suffix_rfl

theorem Selector.read_suffix {ts rest : List Token} {s : Selector} (h : read ts = .ok (s, rest)) : rest <:+ ts := by
  unfold read at h
  split at h
  · cases h
  · rename_i found
    split at h
    · cases h
    · rename_i tail
      cases h
      exact (readTail_suffix tail).trans (Compound.read_suffix found)

/-! ## More tokens behind

A loop that stopped before a token stops there again. One that stopped at the end of the list may go on with what
follows, unless that starts with something else than a selector goes on with. -/

/-- The first token, if there is one, does not go on with a selector. -/
def Closes (late : List Token) : Prop :=
  ∀ t ∈ late.head?, t.kind.extendsCompound = false ∧ t.kind ≠ .greaterThan ∧ t.kind.startsCompound = false

section Append

variable (late : List Token)

theorem Simple.readName_append {mark : Char} {ts rest : List Token} {name : String}
    (h : readName mark ts = .ok (name, rest)) : readName mark (ts ++ late) = .ok (name, rest ++ late) := by
  cases ts with
  | nil => cases h
  | cons t ts =>
    simp only [readName] at h
    split at h
    · rename_i named
      cases h
      exact if_pos named
    · cases h

theorem Simple.read_append {t : Token} {ts : List Token} {outcome : Option (Simple × List Token)}
    (h : read t ts = .ok outcome) :
    read t (ts ++ late) = .ok (outcome.map fun (s, rest) => (s, rest ++ late)) := by
  have named {mark : Char} {make : String → Simple}
      (h : (readName mark ts).map (fun p => some (make p.1, p.2)) = .ok outcome) :
      (readName mark (ts ++ late)).map (fun p => some (make p.1, p.2)) =
        .ok (outcome.map fun (s, rest) => (s, rest ++ late)) := by
    cases found : readName mark ts with
    | error e => simp [found, Except.map] at h
    | ok p =>
      simp only [found, Except.map, Except.ok.injEq] at h
      subst h
      rw [readName_append late found]
      rfl
  unfold read at h ⊢
  split at h
  · cases h; rfl
  · cases h; rfl
  · cases h; rfl
  · exact named h
  · exact named h
  · exact named h
  · cases h; rfl

theorem Compound.readTail_append {ts rest : List Token} {more : List Simple} (h : readTail ts = .ok (more, rest))
    (stopped : rest = [] → Closes late) : readTail (ts ++ late) = .ok (more, rest ++ late) := by
  fun_induction readTail ts generalizing more rest with
  | case1 =>
    cases h
    refine readTail_stop fun t ht => ?_
    rw [(stopped rfl t ht).1, Bool.and_false]
  | case2 => cases h
  | case3 t ts goesOn found =>
    cases h
    rw [List.cons_append, readTail_eq, if_pos goesOn, Simple.read_append late found]
    rfl
  | case4 => cases h
  | case5 t ts goesOn s r found m r' tail ih =>
    cases h
    exact readTail_cons goesOn (Simple.read_append late found) (ih tail stopped)
  | case6 t ts ends =>
    cases h
    rw [List.cons_append, readTail_eq, if_neg ends]

theorem Compound.read_append {ts rest : List Token} {c : Compound} (h : read ts = .ok (c, rest))
    (stopped : rest = [] → Closes late) : read (ts ++ late) = .ok (c, rest ++ late) := by
  cases ts with
  | nil => cases h
  | cons t ts =>
    simp only [read] at h
    split at h
    · cases h
    · cases h
    · rename_i found
      split at h
      · cases h
      · rename_i tail
        cases h
        simp only [List.cons_append, read, Simple.read_append late found, Option.map_some,
          readTail_append late tail stopped]

theorem Selector.readTail_append {ts rest : List Token} {more : List (Combinator × Compound)}
    (h : readTail ts = .ok (more, rest)) (stopped : rest = [] → Closes late) :
    readTail (ts ++ late) = .ok (more, rest ++ late) := by
  -- where a compound of the chain comes to the end of the list, so does the chain
  have left {r r' : List Token} (behind : r' <:+ r) (stopped : r' = [] → Closes late) : r = [] → Closes late := by
    rintro rfl
    exact stopped (List.suffix_nil.mp behind)
  fun_induction readTail ts generalizing more rest with
  | case1 =>
    cases h
    exact readTail_stop fun t ht => (stopped rfl t ht).2
  | case2 => cases h
  | case3 => cases h
  | case4 t ts child c r found m r' tail ih =>
    cases h
    have here := Compound.read_append late found (left (readTail_suffix tail) stopped)
    exact readTail_child child here (ih tail stopped)
  | case5 => cases h
  | case6 => cases h
  | case7 t ts _ start c r found m r' tail ih =>
    cases h
    have here := Compound.read_append late found (left (readTail_suffix tail) stopped)
    exact readTail_descendant start here (ih tail stopped)
  | case8 t ts child start =>
    cases h
    rw [List.cons_append, readTail_eq, if_neg child, if_neg start]

theorem Selector.read_append {ts rest : List Token} {s : Selector} (h : read ts = .ok (s, rest))
    (stopped : rest = [] → Closes late) : read (ts ++ late) = .ok (s, rest ++ late) := by
  unfold read at h
  split at h
  · cases h
  · rename_i c r found
    split at h
    · cases h
    · rename_i tail
      cases h
      have left : r = [] → Closes late := by
        rintro rfl
        exact stopped (List.suffix_nil.mp (readTail_suffix tail))
      simp only [read, Compound.read_append late found left, readTail_append late tail stopped]

end Append

/-! ## At another place -/

/-- The error, `d` bytes further on. -/
def ParseError.shift (d : Nat) : ParseError → ParseError
  | .unexpected position expected kind text => .unexpected (d + position) expected kind text
  | .emptyValue position => .emptyValue (d + position)
  | .endOfInput expected => .endOfInput expected

/-- An outcome with what was read changed by `move`, and with errors `d` bytes further on. -/
def relocate {α : Type} (d : Nat) (move : α → α) : Except ParseError α → Except ParseError α
  | .ok x => .ok (move x)
  | .error e => .error (e.shift d)

/-- What was read with the tokens that are left, these `d` bytes further on. -/
def moveRest {α : Type} (d : Nat) (outcome : α × List Token) : α × List Token :=
  (outcome.1, outcome.2.map (Token.shift d))

/-- Two steps can be moved if each of them can, the second one with what the first one reads. -/
theorem relocate_bind {α β : Type} {d : Nat} {move : α → α} {move' : β → β} {f g : α → Except ParseError β}
    (outcome : Except ParseError α) (same : ∀ x, outcome = .ok x → g (move x) = relocate d move' (f x)) :
    (relocate d move outcome).bind g = relocate d move' (outcome.bind f) := by
  cases outcome with
  | ok x => exact same x rfl
  | error e => rfl

section Shift

variable (d : Nat)

theorem Simple.readName_shift (mark : Char) (ts : List Token) :
    readName mark (ts.map (Token.shift d)) = relocate d (moveRest d) (readName mark ts) := by
  cases ts with
  | nil => rfl
  | cons t ts =>
    by_cases named : t.kind = .ident ∧ t.joined = true
    · have named' : (t.shift d).kind = .ident ∧ (t.shift d).joined = true := named
      rw [List.map_cons, readName, if_pos named', readName, if_pos named]
      rfl
    · have named' : ¬((t.shift d).kind = .ident ∧ (t.shift d).joined = true) := named
      rw [List.map_cons, readName, if_neg named', readName, if_neg named]
      rfl

theorem Simple.read_shift (t : Token) (ts : List Token) :
    read (t.shift d) (ts.map (Token.shift d)) = relocate d (Option.map (moveRest d)) (read t ts) := by
  have named (mark : Char) (make : String → Simple) :
      (readName mark (ts.map (Token.shift d))).map (fun p => some (make p.1, p.2)) =
        relocate d (Option.map (moveRest d)) ((readName mark ts).map fun p => some (make p.1, p.2)) := by
    rw [readName_shift]
    cases readName mark ts <;> rfl
  unfold read
  rw [Token.kind_shift]
  split
  · rfl
  · rfl
  · rfl
  · exact named _ _
  · exact named _ _
  · exact named _ _
  · rfl

theorem Compound.readTail_shift (ts : List Token) :
    readTail (ts.map (Token.shift d)) = relocate d (moveRest d) (readTail ts) := by
  induction length : ts.length using Nat.strong_induction_on generalizing ts with
  | _ n ih =>
    subst length
    cases ts with
    | nil =>
      rw [List.map_nil, readTail]
      rfl
    | cons t ts =>
      rw [List.map_cons, readTail_eq, readTail_eq, Simple.read_shift, Token.kind_shift]
      show (if (t.joined && t.kind.extendsCompound) = true then _ else _) = _
      split
      · refine relocate_bind _ fun outcome found => ?_
        cases outcome with
        | none => rfl
        | some p =>
          obtain ⟨s, rest⟩ := p
          have shorter := Simple.read_length found
          show (readTail (rest.map (Token.shift d))).bind _ = relocate d _ ((readTail rest).bind _)
          rw [ih _ (by simp only [List.length_cons]; omega) rest rfl]
          exact relocate_bind _ fun _ _ => rfl
      · rfl

theorem Compound.read_shift (ts : List Token) :
    read (ts.map (Token.shift d)) = relocate d (moveRest d) (read ts) := by
  cases ts with
  | nil => rfl
  | cons t ts =>
    rw [List.map_cons, read_eq, read_eq, Simple.read_shift]
    refine relocate_bind _ fun outcome _ => ?_
    cases outcome with
    | none => rfl
    | some p =>
      obtain ⟨s, rest⟩ := p
      show (readTail (rest.map (Token.shift d))).bind _ = relocate d _ ((readTail rest).bind _)
      rw [readTail_shift]
      exact relocate_bind _ fun _ _ => rfl

theorem Selector.readTail_shift (ts : List Token) :
    readTail (ts.map (Token.shift d)) = relocate d (moveRest d) (readTail ts) := by
  induction length : ts.length using Nat.strong_induction_on generalizing ts with
  | _ n ih =>
    subst length
    -- a compound and what is behind it, whatever the combinator in front
    have chain (k : Combinator) (us : List Token) (within : us.length ≤ ts.length) :
        ((Compound.read (us.map (Token.shift d))).bind fun (c, rest) =>
            (readTail rest).bind fun (more, rest) => .ok ((k, c) :: more, rest)) =
          relocate d (moveRest d) ((Compound.read us).bind fun (c, rest) =>
            (readTail rest).bind fun (more, rest) => .ok ((k, c) :: more, rest)) := by
      rw [Compound.read_shift]
      refine relocate_bind _ fun ⟨c, rest⟩ found => ?_
      have shorter := Compound.read_length found
      show (readTail (rest.map (Token.shift d))).bind _ = relocate d _ ((readTail rest).bind _)
      rw [ih _ (by omega) rest rfl]
      exact relocate_bind _ fun _ _ => rfl
    cases ts with
    | nil =>
      rw [List.map_nil, readTail]
      rfl
    | cons t ts =>
      rw [List.map_cons, readTail_eq, readTail_eq, Token.kind_shift]
      split
      · exact chain .child ts (by simp)
      · split
        · exact chain .descendant (t :: ts) (Nat.le_refl _)
        · rfl

theorem Selector.read_shift (ts : List Token) :
    read (ts.map (Token.shift d)) = relocate d (moveRest d) (read ts) := by
  rw [read_eq, read_eq, Compound.read_shift]
  refine relocate_bind _ fun ⟨c, rest⟩ _ => ?_
  show (readTail (rest.map (Token.shift d))).bind _ = relocate d _ ((readTail rest).bind _)
  rw [readTail_shift]
  exact relocate_bind _ fun _ _ => rfl

end Shift

/-! ## The first token is not asked where the one before it ended -/

/-- The token with another mark of what is in front of it. -/
def Token.rejoin (joined : Bool) (t : Token) : Token :=
  { t with joined }

theorem Selector.read_rejoin (joined : Bool) (t : Token) (ts : List Token) :
    read (t.rejoin joined :: ts) = read (t :: ts) := by
  have compound : Compound.read (t.rejoin joined :: ts) = Compound.read (t :: ts) := rfl
  rw [read, compound, read]

end Stylebook
