import Stylebook.Proofs.Content.Locality

/-!
# Two sheets one behind the other

A text that is written behind a sheet is read as it is read alone, and what it says comes on top of the sheet
(`Content.parse_append`). The sheet in front must be complete: its quotes and comments are closed, and it ends with the
end of a value or of a block. The proof follows the text through the three scans. Comments are taken out of each part
by itself; the tokens of the front part are followed by those of the other, and the reader, having come to the end of
the front part, goes on with these. There it does what it would do with the other part alone, at another place
(`Content.readOnto_shift`) and on top of other content (`Content.readOnto_adds`).
-/

set_option autoImplicit false

namespace Stylebook

open Lexer

/-! ## Content on top of other content -/

/-- The content `c` has the rules of `base` and then those of `more`, and the definitions of `base` except where `more`
has others. -/
structure Content.Adds (base more c : Content) : Prop where
  rules : c.rules = base.rules ++ more.rules
  definitions : ∀ name, c.valueOf? name = (more.valueOf? name).or (base.valueOf? name)

theorem Content.adds_empty (base : Content) : Adds base empty base :=
  ⟨(List.append_nil _).symm, fun _ => rfl⟩

theorem Content.Adds.define {base more c : Content} (adds : Adds base more c) (name value : String) :
    Adds base (more.define name value) (c.define name value) := by
  refine ⟨adds.rules, fun key => ?_⟩
  have other := adds.definitions key
  simp only [valueOf?, Content.define, Table.get?_insert] at other ⊢
  split
  · rfl
  · exact other

theorem Content.Adds.addBlock {base more c : Content} (adds : Adds base more c) (rule : Rule)
    (definitions : List (String × String)) :
    Adds base (more.addBlock rule definitions) (c.addBlock rule definitions) := by
  have ruled : Adds base (more.addRule rule) (c.addRule rule) := by
    refine ⟨?_, adds.definitions⟩
    rw [addRule, adds.rules, List.append_assoc]
    rfl
  unfold Content.addBlock
  generalize more.addRule rule = more, c.addRule rule = c at ruled ⊢
  induction definitions generalizing more c with
  | nil => exact ruled
  | cons d definitions ih => exact ih _ _ (ruled.define d.1 d.2)

/-- Reading does not depend on the content so far, and adds to it what it would add to other content. -/
theorem Content.readOnto_adds (source : List Char) (ts : List Token) {base more c : Content} (adds : Adds base more c) :
    (∀ e, readOnto source more ts = .error e → readOnto source c ts = .error e) ∧
      ∀ m, readOnto source more ts = .ok m → ∃ c', readOnto source c ts = .ok c' ∧ Adds base m c' := by
  induction length : ts.length using Nat.strong_induction_on generalizing more c ts with
  | _ n ih =>
    subst length
    cases ts with
    | nil =>
      rw [readOnto, readOnto]
      refine ⟨fun e h => (by cases h), fun m h => ?_⟩
      cases h
      exact ⟨c, rfl, adds⟩
    | cons t ts =>
      rw [readOnto_eq, readOnto_eq]
      split
      · exact ih _ (by simp) _ adds rfl
      · cases found : readColonValue source ts with
        | error e => exact ⟨fun _ h => h, fun _ h => (by cases h)⟩
        | ok p =>
          have shorter := readColonValue_length found
          exact ih _ (by simp only [List.length_cons]; omega) _ (adds.define _ p.1) rfl
      · cases found : Rule.read source (t :: ts) with
        | error e => exact ⟨fun _ h => h, fun _ h => (by cases h)⟩
        | ok p => exact ih _ (Rule.read_length found) _ (adds.addBlock p.1.1 p.1.2) rfl

/-! ## Tokens behind other tokens -/

/-- What is in front of a text shows in its first token only. -/
theorem Lexer.tokensOf_previous (p q : Option Nat) (pieces : List Piece) :
    tokensOf p pieces = tokensOf q pieces ∨
      ∃ joined t ts, tokensOf p pieces = t.rejoin joined :: ts ∧ tokensOf q pieces = t :: ts := by
  induction pieces with
  | nil => exact .inl rfl
  | cons piece pieces ih =>
    obtain ⟨kind, chars, start⟩ := piece
    cases kind with
    | token kind => exact .inr ⟨p == some start, _, _, rfl, rfl⟩
    | skipped => exact ih
    | fault => exact ih

theorem Content.readOnto_previous (source cs : List Char) (c : Content) (p q : Option Nat) (start : Nat) :
    readOnto source c (tokensFrom p start cs) = readOnto source c (tokensFrom q start cs) := by
  rcases tokensOf_previous p q (scan start cs) with same | ⟨joined, t, ts, here, there⟩
  · exact congrArg _ same
  · unfold tokensFrom
    rw [here, there, readOnto_rejoin]

/-- The tokens of a text behind another one are read as those of the text alone. -/
theorem Content.readOnto_behind (front cs : List Char) (c : Content) (previous : Option Nat) :
    readOnto (front ++ cs) c (tokensFrom previous (Text.byteSize front) cs) =
      relocate (Text.byteSize front) id (readOnto cs c (tokens cs)) := by
  have moved := tokensFrom_shift (Text.byteSize front) 0 none cs
  rw [readOnto_previous (front ++ cs) cs c previous none, ← readOnto_shift, tokens_eq, ← moved]
  rfl

/-! ## Sheets -/

theorem sealed_stripComments {cs : List Char} (escape : '\\' ∉ cs) (outside : endsOutside none cs = true)
    (ended : ∀ c ∈ lastInk? (stripComments cs), c = ';' ∨ c = '\x7d') : Sealed (stripComments cs) := by
  refine ⟨foldl_quoteAfter_stripFrom outside, fun h => ?_, ended⟩
  rcases mem_of_mem_stripFrom h with inside | blank
  · exact escape inside
  · cases blank

/-- A sealed text ends with no slash that could open a comment. -/
theorem Sealed.getLast?_ne {cs : List Char} (sealed : Sealed cs) : cs.getLast? ≠ some '/' := by
  intro slash
  obtain ⟨front, rfl⟩ := List.getLast?_eq_some_iff.mp slash
  have last : lastInk? (front ++ '/' :: []) = some '/' := lastInk?_ink rfl (List.forall_mem_nil _)
  rcases sealed.ended '/' last with h | h <;> cases h

/-- What is written behind a complete sheet is read on top of it. -/
theorem Content.parse_behind {a b : String} {c : Content} (escape : '\\' ∉ a.toList)
    (outside : endsOutside none a.toList = true)
    (ended : ∀ c ∈ lastInk? (stripComments a.toList), c = ';' ∨ c = '\x7d') (front : parse a = .ok c) :
    parse (a ++ b) = relocate (Text.byteSize (stripComments a.toList)) id
      (readOnto (stripComments b.toList) c (tokens (stripComments b.toList))) := by
  have sealed := sealed_stripComments escape outside ended
  have text : stripComments (a ++ b).toList = stripComments a.toList ++ stripComments b.toList := by
    rw [String.toList_append]
    exact stripFrom_append outside fun slash => absurd slash sealed.getLast?_ne
  obtain ⟨last, cut⟩ := sealed.tokensFrom_append (stripComments b.toList) none 0
  have ends : ValuesEnd (stripComments a.toList) (tokensFrom none 0 (stripComments a.toList)) :=
    sealed.valuesEnd [] none
  rw [Nat.zero_add] at cut
  unfold parse at front ⊢
  dsimp only at front ⊢
  rw [text, tokens_eq, cut, readOnto_append _ _ ends front, readOnto_behind]

/-- **A sheet can be put in front of another text**: what the text says is added to what the sheet says, and its errors
are the same, at the place where they are now. -/
theorem Content.parse_append {a b : String} {ca : Content} (escape : '\\' ∉ a.toList)
    (outside : endsOutside none a.toList = true)
    (ended : ∀ c ∈ lastInk? (stripComments a.toList), c = ';' ∨ c = '\x7d') (front : parse a = .ok ca) :
    ((∃ e, parse (a ++ b) = .error e) ↔ ∃ e, parse b = .error e) ∧
    (∀ e, parse b = .error e → parse (a ++ b) = .error (e.shift (Text.byteSize (stripComments a.toList)))) ∧
    ∀ cb, parse b = .ok cb → ∃ c, parse (a ++ b) = .ok c ∧ c.rules = ca.rules ++ cb.rules ∧
      ∀ name, c.valueOf? name = (cb.valueOf? name).or (ca.valueOf? name) := by
  obtain ⟨fails, reads⟩ := readOnto_adds (stripComments b.toList) (tokens (stripComments b.toList)) (adds_empty ca)
  have whole := parse_behind (b := b) escape outside ended front
  have failed (e : ParseError) (h : parse b = .error e) :
      parse (a ++ b) = .error (e.shift (Text.byteSize (stripComments a.toList))) := by
    rw [whole, fails e h]
    rfl
  have read (cb : Content) (h : parse b = .ok cb) : ∃ c, parse (a ++ b) = .ok c ∧ Adds ca cb c := by
    obtain ⟨c, here, adds⟩ := reads cb h
    exact ⟨c, by rw [whole, here]; rfl, adds⟩
  refine ⟨⟨?_, ?_⟩, failed, ?_⟩
  · rintro ⟨e, h⟩
    cases back : parse b with
    | error e => exact ⟨e, rfl⟩
    | ok cb =>
      obtain ⟨c, here, -⟩ := read cb back
      rw [here] at h
      cases h
  · rintro ⟨e, h⟩
    exact ⟨_, failed e h⟩
  · intro cb h
    obtain ⟨c, here, adds⟩ := read cb h
    exact ⟨c, here, adds.rules, adds.definitions⟩

/-- The front has a quote in a comment, and the end of a comment and of a block in quotes; the text behind it gives one
of its names another value. -/
theorem Content.parse_append_redefined :
    ∃ c, parse ("@x: '*/\x7d;'; /* \" */ @y: 1; p \x7b q: @x \x7d \n" ++ "@x: 2; r.s \x7b t: u \x7d") = .ok c ∧
      c.rules = [⟨[⟨⟨.element "p", []⟩, []⟩], [⟨"q", "@x"⟩]⟩,
        ⟨[⟨⟨.element "r", [.className "s"]⟩, []⟩], [⟨"t", "u"⟩]⟩] ∧
      c.valueOf? "x" = some "2" ∧ c.valueOf? "y" = some "1" := by
  have front : parse "@x: '*/\x7d;'; /* \" */ @y: 1; p \x7b q: @x \x7d \n" =
      .ok ⟨[⟨[⟨⟨.element "p", []⟩, []⟩], [⟨"q", "@x"⟩]⟩], ⟨[("x", "'*/\x7d;'"), ("y", "1")]⟩⟩ := by decide +kernel
  have behind : parse "@x: 2; r.s \x7b t: u \x7d" =
      .ok ⟨[⟨[⟨⟨.element "r", [.className "s"]⟩, []⟩], [⟨"t", "u"⟩]⟩], ⟨[("x", "2")]⟩⟩ := by decide +kernel
  have last : lastInk? (stripComments "@x: '*/\x7d;'; /* \" */ @y: 1; p \x7b q: @x \x7d \n".toList) = some '\x7d' := by
    decide +kernel
  have ended (c : Char) (h : c ∈ some '\x7d') : c = ';' ∨ c = '\x7d' := .inr (Option.mem_some.mp h).symm
  obtain ⟨c, read, rules, values⟩ :=
    (parse_append (by decide) (by decide +kernel) (last ▸ ended) front).2.2 _ behind
  exact ⟨c, read, rules, values "x", values "y"⟩

end Stylebook
