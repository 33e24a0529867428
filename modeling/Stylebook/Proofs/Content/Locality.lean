import Stylebook.Proofs.Content.Sealed
import Stylebook.Proofs.Content.Written
import Stylebook.Proofs.Selector.Locality

/-!
# What a sheet is read from

The lemmas about the readers of selectors (`Proofs.Selector.Locality`), for the readers of sheets. These see the text
besides the tokens: a value is the text behind its colon. So the text may go on only if the values end within it
(`ValuesEnd`), and moving the tokens means that another text stands in front (`rawBehind_shift`).
-/

set_option autoImplicit false

namespace Stylebook

open Lexer

/-! ## Readers, one step at a time -/

theorem readColonValue_eq (source : List Char) (ts : List Token) :
    readColonValue source ts = (Token.expect .colon ts).bind fun (colon, rest) => readValue source colon rest := by
  unfold readColonValue
  split <;> simp_all [Except.bind]

theorem readSelectors_eq (ts : List Token) :
    readSelectors ts = (Selector.read ts).bind fun
      | (s, []) => .ok ([s], [])
      | (s, t :: rest) =>
        if t.kind = .comma then (readSelectors rest).bind fun (more, rest) => .ok (s :: more, rest)
        else .ok ([s], t :: rest) := by
  rw [readSelectors]
  split
  · rename_i found
    rw [found]
    rfl
  · rename_i found
    rw [found]
    rfl
  · rename_i found
    rw [found]
    dsimp only [Except.bind]
    split
    · split <;> simp_all
    · rfl

theorem Block.read_eq (source : List Char) (t : Token) (ts : List Token) :
    read source (t :: ts) =
      match t.kind with
      | .braceClose => .ok (⟨[], []⟩, ts)
      | .semicolon => read source ts
      | .reference => (readColonValue source ts).bind fun (value, rest) => (read source rest).bind fun (b, rest) =>
          .ok (⟨b.declarations, (String.ofList (Reference.bare t.chars), value) :: b.definitions⟩, rest)
      | _ => (Declaration.read source t ts).bind fun (d, rest) => (read source rest).bind fun (b, rest) =>
          .ok (⟨d :: b.declarations, b.definitions⟩, rest) := by
  rw [read]
  split
  · simp_all
  · simp_all
  · split <;> simp_all [Except.bind]
    split <;> simp_all
  · split <;> simp_all [Except.bind]
    split <;> simp_all

theorem Rule.read_eq (source : List Char) (ts : List Token) :
    read source ts = (readSelectors ts).bind fun (selectors, rest) =>
      (Token.expect .braceOpen rest).bind fun (_, rest) =>
        (Block.read source rest).bind fun (b, rest) => .ok ((⟨selectors, b.declarations⟩, b.definitions), rest) := by
  unfold read
  split <;> simp_all [Except.bind]
  split <;> simp_all
  split <;> simp_all

theorem Content.readOnto_eq (source : List Char) (c : Content) (t : Token) (ts : List Token) :
    readOnto source c (t :: ts) =
      match t.kind with
      | .semicolon => readOnto source c ts
      | .reference => (readColonValue source ts).bind fun (value, rest) =>
          readOnto source (c.define (String.ofList (Reference.bare t.chars)) value) rest
      | _ => (Rule.read source (t :: ts)).bind fun (r, rest) => readOnto source (c.addBlock r.1 r.2) rest := by
  rw [readOnto]
  split
  · simp_all
  · split <;> simp_all [Except.bind]
  · split <;> simp_all [Except.bind]

/-! ## What is left is the end of what was given -/

theorem resumeAt_suffix (stop : Nat) (ts : List Token) : resumeAt stop ts <:+ ts := by
  have behind := List.dropWhile_suffix (fun t : Token => decide (t.start < stop)) (l := ts)
  unfold resumeAt
  split
  · exact List.nil_suffix
  · rename_i t rest here
    rw [here] at behind
    split
    · exact (List.suffix_cons t rest).trans behind
    · exact behind

theorem readValue_suffix {source : List Char} {colon : Token} {ts rest : List Token} {value : String}
    (h : readValue source colon ts = .ok (value, rest)) : rest <:+ ts := by
  unfold readValue at h
  split at h
  · cases h
  · cases h
    exact resumeAt_suffix ..

theorem readColonValue_suffix {source : List Char} {ts rest : List Token} {value : String}
    (h : readColonValue source ts = .ok (value, rest)) : rest <:+ ts := by
  unfold readColonValue at h
  split at h
  · cases h
  · rename_i colon
    obtain ⟨rfl, -⟩ := Token.expect_eq_ok_iff.mp colon
    exact (readValue_suffix h).trans (List.suffix_cons ..)

theorem Declaration.read_suffix {source : List Char} {t : Token} {ts rest : List Token} {d : Declaration}
    (h : read source t ts = .ok (d, rest)) : rest <:+ ts := by
  unfold read at h
  split at h
  · cases found : readColonValue source ts with
    | error e => simp [found, Except.map] at h
    | ok p =>
      simp only [found, Except.map, Except.ok.injEq, Prod.mk.injEq] at h
      exact h.2 ▸ readColonValue_suffix found
  · cases h

theorem readSelectors_suffix {ts rest : List Token} {ss : List Selector}
    (h : readSelectors ts = .ok (ss, rest)) : rest <:+ ts := by
  fun_induction readSelectors ts generalizing ss rest with
  | case1 => cases h
  | case2 ts s found => cases h; exact Selector.read_suffix found
  | case3 => cases h
  | case4 ts s t r found _ more r' tail ih =>
    cases h
    exact (ih tail).trans ((List.suffix_cons t r).trans (Selector.read_suffix found))
  | case5 ts s t r found _ => cases h; exact Selector.read_suffix found

theorem Block.read_suffix {source : List Char} {ts rest : List Token} {b : Block}
    (h : read source ts = .ok (b, rest)) : rest <:+ ts := by
  fun_induction read source ts generalizing b rest with
  | case1 => cases h
  | case2 => cases h; exact List.suffix_cons ..
  | case3 t ts _ ih => exact (ih h).trans (List.suffix_cons ..)
  | case4 => cases h
  | case5 => cases h
  | case6 t ts _ value r found b' r' tail ih =>
    cases h
    exact (ih tail).trans ((readColonValue_suffix found).trans (List.suffix_cons ..))
  | case7 => cases h
  | case8 => cases h
  | case9 t ts d r found b' r' tail _ _ _ ih =>
    cases h
    exact (ih tail).trans ((Declaration.read_suffix found).trans (List.suffix_cons ..))

theorem Rule.read_suffix {source : List Char} {ts rest : List Token} {r : Rule × List (String × String)}
    (h : read source ts = .ok (r, rest)) : rest <:+ ts := by
  unfold read at h
  split at h
  · cases h
  · rename_i selectors
    split at h
    · cases h
    · rename_i brace
      obtain ⟨rfl, -⟩ := Token.expect_eq_ok_iff.mp brace
      split at h
      · cases h
      · rename_i block
        cases h
        exact (Block.read_suffix block).trans ((List.suffix_cons ..).trans (readSelectors_suffix selectors))

/-! ## More text and more tokens behind -/

/-- The place where reading goes on does not move if there is a token at it or behind it. -/
theorem resumeAt_append {stop : Nat} {ts : List Token} (here : ∃ t ∈ ts, stop ≤ t.start) (late : List Token) :
    resumeAt stop (ts ++ late) = resumeAt stop ts ++ late := by
  have left : ts.dropWhile (·.start < stop) ≠ [] := by
    obtain ⟨t, member, behind⟩ := here
    intro none
    have before := List.dropWhile_eq_nil_iff.mp none t member
    simp only [decide_eq_true_eq] at before
    omega
  unfold resumeAt
  rw [List.dropWhile_append]
  cases found : ts.dropWhile (·.start < stop) with
  | nil => exact absurd found left
  | cons t rest =>
    simp only [List.isEmpty_cons, Bool.false_eq_true, if_false, List.cons_append]
    split <;> rfl

section Append

variable {source : List Char} (more : List Char) (late : List Token)

theorem readValue_append {colon : Token} {ts rest : List Token} {value : String} (ends : ValueEnds source colon ts)
    (h : readValue source colon ts = .ok (value, rest)) :
    readValue (source ++ more) colon (ts ++ late) = .ok (value, rest ++ late) := by
  obtain ⟨raw, behind, short, here⟩ := ends
  have part : rawBehind source colon = rawPart raw := by rw [rawBehind, behind, Option.getD_some]
  have part' : rawBehind (source ++ more) colon = rawPart raw := by
    rw [rawBehind, Text.dropBytes?_append_of_some behind, Option.getD_some, rawPart_append_of_lt short]
  unfold readValue at h ⊢
  rw [part] at h
  rw [part']
  split at h
  · cases h
  · cases h
    rw [resumeAt_append here]

theorem readColonValue_append {ts rest : List Token} {value : String} (ends : ValuesEnd source ts)
    (h : readColonValue source ts = .ok (value, rest)) :
    readColonValue (source ++ more) (ts ++ late) = .ok (value, rest ++ late) := by
  unfold readColonValue at h
  split at h
  · cases h
  · rename_i colon behind found
    obtain ⟨rfl, kind⟩ := Token.expect_eq_ok_iff.mp found
    have found' : Token.expect .colon (colon :: (behind ++ late)) = .ok (colon, behind ++ late) :=
      Token.expect_eq_ok_iff.mpr ⟨rfl, kind⟩
    rw [List.cons_append, readColonValue, found']
    exact readValue_append more late (ends.1 kind) h

theorem Declaration.read_append {t : Token} {ts rest : List Token} {d : Declaration} (ends : ValuesEnd source ts)
    (h : read source t ts = .ok (d, rest)) : read (source ++ more) t (ts ++ late) = .ok (d, rest ++ late) := by
  unfold read at h ⊢
  split at h
  · rename_i name
    cases found : readColonValue source ts with
    | error e => simp [found, Except.map] at h
    | ok p =>
      simp only [found, Except.map, Except.ok.injEq, Prod.mk.injEq] at h
      rw [if_pos name, readColonValue_append more late ends found, ← h.1, ← h.2]
      rfl
  · cases h

theorem readSelectors_append {ts rest : List Token} {ss : List Selector} (h : readSelectors ts = .ok (ss, rest))
    (stopped : rest ≠ []) : readSelectors (ts ++ late) = .ok (ss, rest ++ late) := by
  fun_induction readSelectors ts generalizing ss rest with
  | case1 => cases h
  | case2 => cases h; exact absurd rfl stopped
  | case3 => cases h
  | case4 ts s t r found comma m r' tail ih =>
    cases h
    have here := Selector.read_append late found fun none => absurd none (List.cons_ne_nil t r)
    exact readSelectors_cons here comma (ih tail stopped)
  | case5 ts s t r found last =>
    cases h
    exact readSelectors_last (Selector.read_append late found fun none => absurd none stopped) last

theorem Block.read_append {ts rest : List Token} {b : Block} (ends : ValuesEnd source ts)
    (h : read source ts = .ok (b, rest)) : read (source ++ more) (ts ++ late) = .ok (b, rest ++ late) := by
  fun_induction read source ts generalizing b rest with
  | case1 => cases h
  | case2 t ts close =>
    cases h
    exact read_close close
  | case3 t ts semicolon ih =>
    rw [List.cons_append, read_eq, semicolon]
    exact ih ends.2 h
  | case4 => cases h
  | case5 => cases h
  | case6 t ts reference value r found b' r' tail ih =>
    cases h
    have behind := ends.2.of_suffix (readColonValue_suffix found)
    rw [List.cons_append, read_eq, reference]
    simp only [readColonValue_append more late ends.2 found, ih behind tail, Except.bind]
  | case7 => cases h
  | case8 => cases h
  | case9 t ts d r found b' r' tail close semicolon reference ih =>
    cases h
    have behind := ends.2.of_suffix (Declaration.read_suffix found)
    rw [List.cons_append, read_eq]
    split
    · exact absurd ‹_› close
    · exact absurd ‹_› semicolon
    · exact absurd ‹_› reference
    · simp only [Declaration.read_append more late ends.2 found, ih behind tail, Except.bind]

theorem Rule.read_append {ts rest : List Token} {r : Rule × List (String × String)} (ends : ValuesEnd source ts)
    (h : read source ts = .ok (r, rest)) : read (source ++ more) (ts ++ late) = .ok (r, rest ++ late) := by
  unfold read at h
  split at h
  · cases h
  · rename_i selectors
    split at h
    · cases h
    · rename_i brace behind found
      obtain ⟨rfl, kind⟩ := Token.expect_eq_ok_iff.mp found
      have selectors' := readSelectors_append late selectors (List.cons_ne_nil _ _)
      have found' : Token.expect .braceOpen (brace :: behind ++ late) = .ok (brace, behind ++ late) :=
        Token.expect_eq_ok_iff.mpr ⟨rfl, kind⟩
      split at h
      · cases h
      · rename_i block
        cases h
        have ends' := (ends.of_suffix (readSelectors_suffix selectors)).2
        simp only [read, selectors', found', Block.read_append more late ends' block]

/-- A sheet is read up to its end as it is alone, and then goes on with what follows. -/
theorem Content.readOnto_append {c c' : Content} {ts : List Token} (ends : ValuesEnd source ts)
    (h : readOnto source c ts = .ok c') :
    readOnto (source ++ more) c (ts ++ late) = readOnto (source ++ more) c' late := by
  fun_induction readOnto source c ts with
  | case1 =>
    cases h
    rfl
  | case2 c t ts semicolon ih =>
    rw [List.cons_append, readOnto_eq, semicolon]
    exact ih ends.2 h
  | case3 => cases h
  | case4 c t ts reference value rest found ih =>
    rw [List.cons_append, readOnto_definition reference (readColonValue_append more late ends.2 found)]
    exact ih (ends.2.of_suffix (readColonValue_suffix found)) h
  | case5 => cases h
  | case6 c t ts rule definitions rest found semicolon reference ih =>
    have here := Rule.read_append more late ends found
    rw [List.cons_append] at here ⊢
    rw [readOnto_eq]
    split
    · exact absurd ‹_› semicolon
    · exact absurd ‹_› reference
    · rw [here]
      exact ih (ends.of_suffix (Rule.read_suffix found)) h

end Append

/-! ## At another place -/

theorem Token.expect_shift (d : Nat) (kind : TokenKind) (ts : List Token) :
    expect kind (ts.map (Token.shift d)) =
      relocate d (fun p => (p.1.shift d, p.2.map (Token.shift d))) (expect kind ts) := by
  cases ts with
  | nil => rfl
  | cons t ts =>
    by_cases here : t.kind = kind
    · simp only [List.map_cons, expect, kind_shift, here, if_true]
      rfl
    · simp only [List.map_cons, expect, kind_shift, here, if_false]
      rfl

theorem resumeAt_shift (d stop : Nat) (ts : List Token) :
    resumeAt (d + stop) (ts.map (Token.shift d)) = (resumeAt stop ts).map (Token.shift d) := by
  have same : (fun t : Token => decide (t.start < d + stop)) ∘ Token.shift d = fun t => decide (t.start < stop) := by
    funext t
    simp [Token.shift]
  unfold resumeAt
  rw [List.dropWhile_map, same]
  cases ts.dropWhile (·.start < stop) with
  | nil => rfl
  | cons t rest =>
    by_cases semicolon : t.kind = .semicolon
    · simp only [List.map_cons, Token.kind_shift, semicolon, if_true]
    · simp only [List.map_cons, Token.kind_shift, semicolon, if_false]

section Shift

variable (front source : List Char)

/-- The value behind a colon is the same with another text in front. -/
theorem rawBehind_shift (colon : Token) :
    rawBehind (front ++ source) (colon.shift (Text.byteSize front)) = rawBehind source colon := by
  have stop : (colon.shift (Text.byteSize front)).stop = Text.byteSize front + colon.stop := by
    simp [Token.stop, Token.shift, Nat.add_assoc]
  rw [rawBehind, stop, Text.dropBytes?_append_add, rawBehind]

theorem readValue_shift (colon : Token) (ts : List Token) :
    readValue (front ++ source) (colon.shift (Text.byteSize front)) (ts.map (Token.shift (Text.byteSize front))) =
      relocate (Text.byteSize front) (moveRest (Text.byteSize front)) (readValue source colon ts) := by
  have stop : (colon.shift (Text.byteSize front)).stop = Text.byteSize front + colon.stop := by
    simp [Token.stop, Token.shift, Nat.add_assoc]
  unfold readValue
  rw [rawBehind_shift, stop]
  split
  · rfl
  · rw [Nat.add_assoc, resumeAt_shift]
    rfl

theorem readColonValue_shift (ts : List Token) :
    readColonValue (front ++ source) (ts.map (Token.shift (Text.byteSize front))) =
      relocate (Text.byteSize front) (moveRest (Text.byteSize front)) (readColonValue source ts) := by
  rw [readColonValue_eq, readColonValue_eq, Token.expect_shift]
  exact relocate_bind _ fun p _ => readValue_shift front source p.1 p.2

theorem Declaration.read_shift (t : Token) (ts : List Token) :
    read (front ++ source) (t.shift (Text.byteSize front)) (ts.map (Token.shift (Text.byteSize front))) =
      relocate (Text.byteSize front) (moveRest (Text.byteSize front)) (read source t ts) := by
  unfold read
  rw [Token.kind_shift]
  split
  · rw [readColonValue_shift]
    cases readColonValue source ts <;> rfl
  · rfl

theorem readSelectors_shift (d : Nat) (ts : List Token) :
    readSelectors (ts.map (Token.shift d)) = relocate d (moveRest d) (readSelectors ts) := by
  induction length : ts.length using Nat.strong_induction_on generalizing ts with
  | _ n ih =>
    subst length
    rw [readSelectors_eq, readSelectors_eq, Selector.read_shift]
    refine relocate_bind _ fun ⟨s, rest⟩ found => ?_
    cases rest with
    | nil => rfl
    | cons t rest =>
      have shorter := Selector.read_length found
      show (if (t.shift d).kind = .comma then _ else _) = relocate d _ (if t.kind = .comma then _ else _)
      rw [Token.kind_shift]
      split
      · rw [ih _ (by simp only [List.length_cons] at shorter; omega) rest rfl]
        exact relocate_bind _ fun _ _ => rfl
      · rfl

theorem Block.read_shift (ts : List Token) :
    read (front ++ source) (ts.map (Token.shift (Text.byteSize front))) =
      relocate (Text.byteSize front) (moveRest (Text.byteSize front)) (read source ts) := by
  induction length : ts.length using Nat.strong_induction_on generalizing ts with
  | _ n ih =>
    subst length
    cases ts with
    | nil =>
      rw [List.map_nil, read, read]
      rfl
    | cons t ts =>
      rw [List.map_cons, read_eq, read_eq, Token.kind_shift]
      split
      · rfl
      · exact ih _ (by simp) ts rfl
      · rw [readColonValue_shift]
        refine relocate_bind _ fun p found => ?_
        have shorter := readColonValue_length found
        show (read (front ++ source) (p.2.map (Token.shift _))).bind _ = relocate _ _ ((read source p.2).bind _)
        rw [ih _ (by simp only [List.length_cons]; omega) p.2 rfl]
        exact relocate_bind _ fun _ _ => rfl
      · rw [Declaration.read_shift]
        refine relocate_bind _ fun p found => ?_
        have shorter := Declaration.read_length found
        show (read (front ++ source) (p.2.map (Token.shift _))).bind _ = relocate _ _ ((read source p.2).bind _)
        rw [ih _ (by simp only [List.length_cons]; omega) p.2 rfl]
        exact relocate_bind _ fun _ _ => rfl

theorem Rule.read_shift (ts : List Token) :
    read (front ++ source) (ts.map (Token.shift (Text.byteSize front))) =
      relocate (Text.byteSize front) (moveRest (Text.byteSize front)) (read source ts) := by
  rw [read_eq, read_eq, readSelectors_shift]
  refine relocate_bind _ fun selectors _ => ?_
  show (Token.expect .braceOpen (selectors.2.map (Token.shift _))).bind _ = _
  rw [Token.expect_shift]
  refine relocate_bind _ fun brace _ => ?_
  show (Block.read (front ++ source) (brace.2.map (Token.shift _))).bind _ = _
  rw [Block.read_shift]
  exact relocate_bind _ fun _ _ => rfl

theorem Content.readOnto_shift (c : Content) (ts : List Token) :
    readOnto (front ++ source) c (ts.map (Token.shift (Text.byteSize front))) =
      relocate (Text.byteSize front) id (readOnto source c ts) := by
  induction length : ts.length using Nat.strong_induction_on generalizing c ts with
  | _ n ih =>
    subst length
    cases ts with
    | nil =>
      rw [List.map_nil, readOnto, readOnto]
      rfl
    | cons t ts =>
      rw [List.map_cons, readOnto_eq, readOnto_eq, Token.kind_shift]
      split
      · exact ih _ (by simp) c ts rfl
      · rw [readColonValue_shift]
        refine relocate_bind _ fun p found => ?_
        have shorter := readColonValue_length found
        exact ih _ (by simp only [List.length_cons]; omega) _ p.2 rfl
      · rw [← List.map_cons, Rule.read_shift]
        exact relocate_bind _ fun p found => ih _ (Rule.read_length found) _ p.2 rfl

end Shift

/-! ## The first token is not asked where the one before it ended -/

theorem Rule.read_rejoin (source : List Char) (joined : Bool) (t : Token) (ts : List Token) :
    read source (t.rejoin joined :: ts) = read source (t :: ts) := by
  have selectors : readSelectors (t.rejoin joined :: ts) = readSelectors (t :: ts) := by
    rw [readSelectors_eq, Selector.read_rejoin, ← readSelectors_eq]
  rw [read, selectors, ← read]

theorem Content.readOnto_rejoin (source : List Char) (c : Content) (joined : Bool) (t : Token) (ts : List Token) :
    readOnto source c (t.rejoin joined :: ts) = readOnto source c (t :: ts) := by
  rw [readOnto_eq, Rule.read_rejoin, readOnto_eq]
  rfl

end Stylebook
