import Stylebook.Proofs.Content.Locality
import Stylebook.Proofs.Token.Coverage
import Stylebook.Proofs.Value.Arguments
import Stylebook.Scalar.Rational

/-!
# Readers make progress

However malformed a text is, no reader stands still. The readers of sheets and selectors are loops over the tokens of the
text, and each has a turn of its own below: what it looks at, which readers it calls, and whether there is another turn
behind it. Two of the turns seem to take nothing. A compound goes on at a token that need not start a simple selector, but
each kind of token that it goes on at does (`Simple.read_of_extends`). And the value behind a colon may end inside a
token, but its colon was taken before (`readColonValue_length`).

Besides the tokens that are left, the readers look at two things. Whether a token is joined to the one before is a mark
of the token, and it is put on by the end of the token in front of it, which is there (`joined_iff`). And the raw value
behind a colon is cut out of the text, which can be cut at both of its ends (`raw_stands`).
-/

set_option autoImplicit false

namespace Stylebook

open Lexer

/-! ## Readers take tokens -/

theorem Compound.taking_read : Taking read :=
  fun _ _ _ h => ⟨read_suffix h, read_length h⟩

theorem Selector.taking_read : Taking read :=
  fun _ _ _ h => ⟨read_suffix h, read_length h⟩

theorem taking_readSelectors : Taking readSelectors :=
  fun _ _ _ h => ⟨readSelectors_suffix h, readSelectors_length h⟩

theorem taking_readColonValue (source : List Char) : Taking (readColonValue source) :=
  fun _ _ _ h => ⟨readColonValue_suffix h, readColonValue_length h⟩

theorem Declaration.taking_read (source : List Char) (t : Token) : Taking (read source t) :=
  fun _ _ _ h => ⟨read_suffix h, read_length h⟩

theorem Rule.taking_read (source : List Char) : Taking (read source) :=
  fun _ _ _ h => ⟨read_suffix h, read_length h⟩

/-! ## Compounds -/

namespace Compound

/-- The simple selector that a compound starts with. -/
def first : List Token → Except ParseError (Compound × List Token)
  | [] => .error (.endOfInput .selectorPart)
  | t :: ts =>
    (Simple.read t ts).bind fun
      | none => .error (.at t .selectorPart)
      | some (s, rest) => .ok (⟨s, []⟩, rest)

/-- A further simple selector, if it is joined to what was read. -/
def turn (c : Compound) : List Token → Turn ParseError Compound
  | [] => .ended c []
  | t :: ts =>
    if t.joined && t.kind.extendsCompound then
      match Simple.read t ts with
      | .error e => .failed e
      | .ok none => .onward c (t :: ts)
      | .ok (some (s, rest)) => .onward ⟨c.head, c.tail ++ [s]⟩ rest
    else .ended c (t :: ts)

/-- The rest of a compound, behind what was read of it. -/
def further (c : Compound) (ts : List Token) : Except ParseError (Compound × List Token) :=
  (readTail ts).bind fun (more, rest) => .ok (⟨c.head, c.tail ++ more⟩, rest)

end Compound

/-- A token at which a compound goes on is the start of a simple selector. -/
theorem Simple.read_of_extends {t : Token} (goes : t.kind.extendsCompound = true) (ts : List Token) :
    read t ts ≠ .ok none := by
  have named (mark : Char) (make : String → Simple) :
      (readName mark ts).map (fun p => some (make p.1, p.2)) ≠ .ok none := by
    cases readName mark ts <;> simp [Except.map]
  unfold read
  cases kind : t.kind with
  | dot => exact named '.' .className
  | hash => exact named '#' .identifier
  | colon => exact named ':' .pseudo
  | hexColor => simp
  | _ => simp [kind, TokenKind.extendsCompound] at goes

theorem Simple.takes {t : Token} {ts rest : List Token} {s : Simple} (h : read t ts = .ok (some (s, rest))) :
    rest <:+ t :: ts ∧ rest.length < (t :: ts).length :=
  ⟨(read_suffix h).trans (List.suffix_cons t ts), Nat.lt_succ_of_le (read_length h)⟩

namespace Compound

theorem taking_first : Taking first := by
  intro ts c rest h
  cases ts with
  | nil => cases h
  | cons t ts =>
    rw [first] at h
    cases found : Simple.read t ts with
    | error e =>
      rw [found] at h
      cases h
    | ok part =>
      rw [found] at h
      cases part with
      | none => cases h
      | some p =>
        cases h
        exact Simple.takes found

theorem moves_turn (c : Compound) (ts : List Token) : (turn c ts).Moves ts := by
  cases ts with
  | nil => exact List.suffix_rfl
  | cons t ts =>
    rw [turn]
    split
    · rename_i goes
      split
      · trivial
      · rename_i none
        exact absurd none (Simple.read_of_extends (Bool.and_eq_true_iff.mp goes).2 ts)
      · rename_i found
        exact Simple.takes found
    · exact List.suffix_rfl

theorem further_eq (c : Compound) (ts : List Token) : further c ts = (turn c ts).answer further := by
  cases ts with
  | nil => simp [further, turn, readTail, Turn.answer, Except.bind]
  | cons t ts =>
    unfold further
    rw [readTail_eq, turn]
    split
    · rename_i goes
      cases found : Simple.read t ts with
      | error e => rfl
      | ok part =>
        cases part with
        | none => exact absurd found (Simple.read_of_extends (Bool.and_eq_true_iff.mp goes).2 ts)
        | some p => cases tail : readTail p.2 <;> simp [Except.bind, Turn.answer, tail]
    · simp [Except.bind, Turn.answer]

theorem looped : Looped first turn read := by
  apply Looped.of_turn further
  · intro ts
    cases ts with
    | nil => rfl
    | cons t ts =>
      rw [read_eq, first]
      cases Simple.read t ts with
      | error e => rfl
      | ok part => cases part <;> rfl
  · exact moves_turn
  · exact further_eq
  · exact .inl taking_first

end Compound

/-! ## Selectors -/

namespace Selector

/-- The compound that a selector starts with. -/
def first (ts : List Token) : Except ParseError (Selector × List Token) :=
  (Compound.read ts).bind fun (c, rest) => .ok (⟨c, []⟩, rest)

/-- A further compound behind a greater-than sign or behind nothing. -/
def turn (s : Selector) : List Token → Turn ParseError Selector
  | [] => .broken s []
  | t :: ts =>
    if t.kind = .greaterThan then .after (Compound.read ts) fun c => s.link .child ⟨c, []⟩
    else if t.kind.startsCompound then .after (Compound.read (t :: ts)) fun c => s.link .descendant ⟨c, []⟩
    else .broken s (t :: ts)

/-- The rest of a selector, behind what was read of it. -/
def further (s : Selector) (ts : List Token) : Except ParseError (Selector × List Token) :=
  (readTail ts).bind fun (more, rest) => .ok (⟨s.head, s.tail ++ more⟩, rest)

theorem moves_turn (s : Selector) (ts : List Token) : (turn s ts).Moves ts := by
  cases ts with
  | nil => exact List.suffix_rfl
  | cons t ts =>
    rw [turn]
    split
    · exact Turn.moves_after Compound.taking_read _ (List.suffix_cons t ts)
    · split
      · exact Turn.moves_after Compound.taking_read _ List.suffix_rfl
      · exact List.suffix_rfl

theorem further_eq (s : Selector) (ts : List Token) : further s ts = (turn s ts).answer further := by
  have linked (k : Combinator) (us : List Token) :
      ((Compound.read us).bind fun (c, rest) => (readTail rest).bind fun (more, rest) => .ok ((k, c) :: more, rest)).bind
          (fun (more, rest) => .ok (⟨s.head, s.tail ++ more⟩, rest)) =
        (Turn.after (Compound.read us) fun c => s.link k ⟨c, []⟩).answer further := by
    cases Compound.read us with
    | error e => rfl
    | ok p => cases tail : readTail p.2 <;> simp [Except.bind, further, link, tail]
  cases ts with
  | nil => simp [further, turn, readTail, Turn.answer, Except.bind]
  | cons t ts =>
    unfold further
    rw [readTail_eq, turn]
    split
    · exact linked .child ts
    · split
      · exact linked .descendant (t :: ts)
      · simp [Except.bind, Turn.answer]

theorem looped : Looped first turn read := by
  apply Looped.of_turn further
  · intro ts
    rw [read_eq, first]
    cases Compound.read ts <;> rfl
  · exact moves_turn
  · exact further_eq
  · exact .inl (Compound.taking_read.gather fun c => (⟨c, []⟩ : Selector))

end Selector

/-! ## Lists of selectors -/

/-- The selector that a list starts with. -/
def firstSelector (ts : List Token) : Except ParseError (List Selector × List Token) :=
  (Selector.read ts).bind fun (s, rest) => .ok ([s], rest)

/-- A further selector behind a comma. -/
def selectorTurn (ss : List Selector) : List Token → Turn ParseError (List Selector)
  | [] => .ended ss []
  | t :: ts => if t.kind = .comma then .after (Selector.read ts) fun s => ss ++ [s] else .ended ss (t :: ts)

/-- The rest of a list of selectors, behind what was read of it. -/
def furtherSelectors (ss : List Selector) : List Token → Except ParseError (List Selector × List Token)
  | [] => .ok (ss, [])
  | t :: ts =>
    if t.kind = .comma then (readSelectors ts).bind fun (more, rest) => .ok (ss ++ more, rest)
    else .ok (ss, t :: ts)

theorem moves_selectorTurn (ss : List Selector) (ts : List Token) : (selectorTurn ss ts).Moves ts := by
  cases ts with
  | nil => exact List.suffix_rfl
  | cons t ts =>
    rw [selectorTurn]
    split
    · exact Turn.moves_after Selector.taking_read _ (List.suffix_cons t ts)
    · exact List.suffix_rfl

/-- A list goes on behind its first selector. -/
theorem readSelectors_further (ss : List Selector) (ts : List Token) :
    ((readSelectors ts).bind fun (more, rest) => .ok (ss ++ more, rest)) =
      (Selector.read ts).bind fun (s, rest) => furtherSelectors (ss ++ [s]) rest := by
  rw [readSelectors_eq]
  cases Selector.read ts with
  | error e => rfl
  | ok p =>
    obtain ⟨s, rest⟩ := p
    cases rest with
    | nil => rfl
    | cons t rest =>
      by_cases comma : t.kind = .comma
      · cases more : readSelectors rest <;> simp [Except.bind, furtherSelectors, comma, more]
      · simp [Except.bind, furtherSelectors, comma]

theorem furtherSelectors_eq (ss : List Selector) (ts : List Token) :
    furtherSelectors ss ts = (selectorTurn ss ts).answer furtherSelectors := by
  cases ts with
  | nil => rfl
  | cons t ts =>
    rw [furtherSelectors, selectorTurn]
    split
    · rw [readSelectors_further, Turn.answer_after]
    · rfl

theorem looped_readSelectors : Looped firstSelector selectorTurn readSelectors := by
  apply Looped.of_turn furtherSelectors
  · intro ts
    have plain : readSelectors ts = (readSelectors ts).bind fun (more, rest) => .ok ([] ++ more, rest) := by
      cases readSelectors ts <;> rfl
    rw [plain, readSelectors_further, firstSelector]
    cases Selector.read ts <;> rfl
  · exact moves_selectorTurn
  · exact furtherSelectors_eq
  · exact .inl (Selector.taking_read.gather fun s => [s])

/-! ## Rules -/

namespace Rule

/-- A rule as it is read, with the definitions that its block makes. -/
abbrev Read : Type :=
  Rule × List (String × String)

/-- The selectors of a rule and the brace that opens its block. -/
def first (ts : List Token) : Except ParseError (Read × List Token) :=
  (readSelectors ts).bind fun (selectors, rest) =>
    (Token.expect .braceOpen rest).bind fun (_, rest) => .ok ((⟨selectors, []⟩, []), rest)

/-- A semicolon, a definition or a declaration of the block, or the brace that closes it. -/
def turn (source : List Char) (r : Read) : List Token → Turn ParseError Read
  | [] => .failed (.endOfInput (.token .braceClose))
  | t :: ts =>
    match t.kind with
    | .braceClose => .broken r ts
    | .semicolon => .onward r ts
    | .reference => .after (readColonValue source ts) fun value =>
        (r.1, r.2 ++ [(String.ofList (Reference.bare t.chars), value)])
    | _ => .after (Declaration.read source t ts) fun d => (⟨r.1.selectors, r.1.declarations ++ [d]⟩, r.2)

/-- The rest of a rule, behind what was read of it. -/
def further (source : List Char) (r : Read) (ts : List Token) : Except ParseError (Read × List Token) :=
  (Block.read source ts).bind fun (b, rest) =>
    .ok ((⟨r.1.selectors, r.1.declarations ++ b.declarations⟩, r.2 ++ b.definitions), rest)

theorem taking_first : Taking first := by
  intro ts r rest h
  rw [first] at h
  cases found : readSelectors ts with
  | error e =>
    rw [found] at h
    cases h
  | ok p =>
    obtain ⟨selectors, behind⟩ := p
    rw [found] at h
    cases brace : Token.expect .braceOpen behind with
    | error e =>
      dsimp only [Except.bind] at h
      rw [brace] at h
      cases h
    | ok q =>
      dsimp only [Except.bind] at h
      rw [brace] at h
      cases h
      obtain ⟨rfl, -⟩ := Token.expect_eq_ok_iff.mp brace
      obtain ⟨within, less⟩ := taking_readSelectors ts selectors _ found
      exact ⟨(List.suffix_cons ..).trans within, (Nat.lt_succ_self _).trans less⟩

theorem moves_turn (source : List Char) (r : Read) (ts : List Token) : (turn source r ts).Moves ts := by
  cases ts with
  | nil => trivial
  | cons t ts =>
    rw [turn]
    split
    · exact List.suffix_cons t ts
    · exact ⟨List.suffix_cons t ts, Nat.lt_succ_self _⟩
    · exact Turn.moves_after (taking_readColonValue source) _ (List.suffix_cons t ts)
    · exact Turn.moves_after (Declaration.taking_read source t) _ (List.suffix_cons t ts)

theorem further_eq (source : List Char) (r : Read) (ts : List Token) :
    further source r ts = (turn source r ts).answer (further source) := by
  cases ts with
  | nil => simp [further, turn, Block.read, Turn.answer, Except.bind]
  | cons t ts =>
    unfold further
    rw [Block.read_eq, turn]
    cases kind : t.kind with
    | braceClose => simp [Except.bind, Turn.answer]
    | semicolon => rfl
    | reference =>
      rw [Turn.answer_after]
      cases readColonValue source ts with
      | error e => rfl
      | ok p => cases block : Block.read source p.2 <;> simp [Except.bind, block]
    | _ =>
      rw [Turn.answer_after]
      cases Declaration.read source t ts with
      | error e => rfl
      | ok p => cases block : Block.read source p.2 <;> simp [Except.bind, block]

theorem looped (source : List Char) : Looped first (turn source) (read source) := by
  apply Looped.of_turn (further source)
  · intro ts
    rw [read_eq, first]
    cases readSelectors ts with
    | error e => rfl
    | ok p =>
      obtain ⟨selectors, rest⟩ := p
      cases brace : Token.expect .braceOpen rest <;> simp [Except.bind, further, brace]
  · exact moves_turn source
  · exact further_eq source
  · exact .inl taking_first

end Rule

/-! ## Sheets -/

namespace Content

/-- What a sheet starts with, which is nothing. -/
def first (ts : List Token) : Except ParseError (Content × List Token) :=
  .ok (.empty, ts)

/-- A semicolon, a definition or a rule. -/
def turn (source : List Char) (c : Content) : List Token → Turn ParseError Content
  | [] => .ended c []
  | t :: ts =>
    match t.kind with
    | .semicolon => .onward c ts
    | .reference => .after (readColonValue source ts) fun value =>
        c.define (String.ofList (Reference.bare t.chars)) value
    | _ => .after (Rule.read source (t :: ts)) fun r => c.addBlock r.1 r.2

/-- The rest of a sheet, behind what was read of it; nothing is left. -/
def further (source : List Char) (c : Content) (ts : List Token) : Except ParseError (Content × List Token) :=
  (readOnto source c ts).bind fun c => .ok (c, [])

theorem moves_turn (source : List Char) (c : Content) (ts : List Token) : (turn source c ts).Moves ts := by
  cases ts with
  | nil => exact List.suffix_rfl
  | cons t ts =>
    rw [turn]
    split
    · exact ⟨List.suffix_cons t ts, Nat.lt_succ_self _⟩
    · exact Turn.moves_after (taking_readColonValue source) _ (List.suffix_cons t ts)
    · exact Turn.moves_after (Rule.taking_read source) _ List.suffix_rfl

theorem further_eq (source : List Char) (c : Content) (ts : List Token) :
    further source c ts = (turn source c ts).answer (further source) := by
  cases ts with
  | nil => simp [further, turn, readOnto, Turn.answer, Except.bind]
  | cons t ts =>
    unfold further
    rw [readOnto_eq, turn]
    cases kind : t.kind with
    | semicolon => rfl
    | reference => cases readColonValue source ts <;> rfl
    | _ => cases Rule.read source (t :: ts) <;> rfl

theorem looped (source : List Char) : Looped first (turn source) (further source .empty) := by
  apply Looped.of_turn (further source)
  · intro ts
    rfl
  · exact moves_turn source
  · exact further_eq source
  · refine .inr ⟨?_, fun c => ⟨c, [], rfl⟩⟩
    intro ts c rest h
    cases h
    exact List.suffix_rfl

end Content

/-! ## What the readers look at besides -/

namespace Lexer

/-- Behind the first token there is one in front of each place, and the token at the place is joined to it if it starts
where that one stops. -/
theorem joined_iff {cs : List Char} {k : Nat} (inside : 0 < k) (within : k ≤ (tokens cs).length) :
    ∃ u, (tokens cs)[k - 1]? = some u ∧ ∀ t ∈ (tokens cs)[k]?, (t.joined = true ↔ t.start = u.stop) := by
  have less : k - 1 < (tokens cs).length := by omega
  have before : (tokens cs)[k - 1]? = some (tokens cs)[k - 1] := List.getElem?_eq_getElem less
  refine ⟨(tokens cs)[k - 1], before, ?_⟩
  intro t ht
  obtain ⟨there, here⟩ := List.getElem?_eq_some_iff.mp ht
  have split : tokens cs = (tokens cs).take k ++ t :: (tokens cs).drop (k + 1) := by
    rw [← here, ← List.drop_eq_getElem_cons there, List.take_append_drop]
  have last : ((tokens cs).take k).getLast? = some (tokens cs)[k - 1] := by
    rw [List.getLast?_take, if_neg (by omega), before]
    rfl
  rw [joined_of_append split, stopBehind, last, beq_iff_eq, Option.some.injEq]
  exact eq_comm

/-- The first token is joined to nothing. -/
theorem joined_first {cs : List Char} {t : Token} (h : (tokens cs)[0]? = some t) : t.joined = false := by
  rw [← List.head?_eq_getElem?] at h
  exact joined_of_head h

end Lexer

/-- The raw value behind a colon is a part of the text, and the text can be cut at both of its ends. -/
theorem raw_stands {source : List Char} {colon : Token} (h : colon ∈ tokens source) :
    colon.stop + Text.byteSize (rawBehind source colon) ≤ Text.byteSize source ∧
    ∃ after, Text.dropBytes? source colon.stop = some (rawBehind source colon ++ after) ∧
      Text.dropBytes? source (colon.stop + Text.byteSize (rawBehind source colon)) = some after := by
  obtain ⟨rest, ⟨before, split, start⟩, -⟩ := stands_of_mem_scan (mem_tokensOf h)
  obtain ⟨front, cut, stop⟩ : ∃ front, source = front ++ rest ∧ colon.stop = Text.byteSize front := by
    refine ⟨before ++ colon.chars, by rw [split, List.append_assoc], ?_⟩
    rw [Text.byteSize_append, ← start]
    rfl
  have behind : Text.dropBytes? source colon.stop = some rest := by rw [cut, stop, Text.dropBytes?_append]
  have raw : rawBehind source colon = rest.take (rawLength none rest) := by rw [rawBehind, behind]; rfl
  have parts : rawBehind source colon ++ rest.drop (rawLength none rest) = rest := by rw [raw, List.take_append_drop]
  have whole : source = front ++ rawBehind source colon ++ rest.drop (rawLength none rest) := by
    rw [List.append_assoc, parts, cut]
  have size : colon.stop + Text.byteSize (rawBehind source colon) = Text.byteSize (front ++ rawBehind source colon) := by
    rw [stop, Text.byteSize_append]
  refine ⟨?_, rest.drop (rawLength none rest), by rw [parts, behind], ?_⟩
  · have total := congrArg Text.byteSize whole
    rw [Text.byteSize_append] at total
    omega
  · rw [size]
    nth_rewrite 1 [whole]
    exact Text.dropBytes?_append ..

/-! ## Progress -/

/-- Each loop of a reader goes on only with fewer tokens, and comes to its end; and what else the readers look at is
there. -/
structure Progress (α : Type) [Scalar α] : Prop where
  sheet : ∀ source, Looped Content.first (Content.turn source) (Content.further source .empty)
  rule : ∀ source, Looped Rule.first (Rule.turn source) (Rule.read source)
  selectors : Looped firstSelector selectorTurn readSelectors
  selector : Looped Selector.first Selector.turn Selector.read
  compound : Looped Compound.first Compound.turn Compound.read
  /-- The readers that the turns call. -/
  takes : ∀ source, Taking (readColonValue source) ∧ Taking (Rule.read source) ∧ Taking readSelectors ∧
    Taking Selector.read ∧ Taking Compound.read
  /-- Reading a text as a sheet takes at most as many turns as the text has tokens. -/
  parse : ∀ text : String, ∃ n ≤ (tokens (stripComments text.toList)).length,
    Loops (Content.turn (stripComments text.toList)) n .empty (tokens (stripComments text.toList))
      ((Content.parse text).bind fun c => .ok (c, []))
  figure : ∀ value? : Token → Option α, Reading.Repeats 0 (Reading.itemsTurn value?) (Reading.items value? true)
  channels : Reading.Repeats 1 (Reading.callTurn Color.nextChannel) (Color.channelList true : Reading (List α))
  arguments : Reading.Repeats 1 (Reading.callTurn (Reading.nextItem Token.looseNumber?))
    (Transform.takeArguments : Reading (List α))
  /-- Behind the first token of a text there is one in front of each place, up to the end, and the token at the place is
  joined to it if it starts where that one stops. -/
  joined : ∀ cs k, 0 < k → k ≤ (tokens cs).length →
    ∃ u, (tokens cs)[k - 1]? = some u ∧ ∀ t ∈ (tokens cs)[k]?, (t.joined = true ↔ t.start = u.stop)
  alone : ∀ cs, ∀ t ∈ (tokens cs)[0]?, t.joined = false
  /-- The raw value behind a colon is within the text, which can be cut in front of it and behind it. -/
  value : ∀ source, ∀ colon ∈ tokens source,
    colon.stop + Text.byteSize (rawBehind source colon) ≤ Text.byteSize source ∧
    ∃ after, Text.dropBytes? source colon.stop = some (rawBehind source colon ++ after) ∧
      Text.dropBytes? source (colon.stop + Text.byteSize (rawBehind source colon)) = some after

/-- **Readers make progress.** On any tokens, the loops over the rules of a sheet, a block, a list of selectors, the
compounds of a selector, the simple selectors of a compound, and over the arguments in parentheses, closed or not, never
give a token back; each turn fails, is the last, or takes a token; and there are at most as many turns as tokens. A
place in front of which a reader looks has a token there, and a value that is cut out of a text lies within it. -/
theorem readers_progress (α : Type) [Scalar α] : Progress α where
  sheet := Content.looped
  rule := Rule.looped
  selectors := looped_readSelectors
  selector := Selector.looped
  compound := Compound.looped
  takes source := ⟨taking_readColonValue source, Rule.taking_read source, taking_readSelectors, Selector.taking_read,
    Compound.taking_read⟩
  parse text := (Content.looped (stripComments text.toList)).loops _ _ _ rfl
  figure := Reading.repeats_items
  channels := Color.repeats_channelList
  arguments := Transform.repeats_takeArguments
  joined _ _ := joined_iff
  alone _ _ := joined_first
  value _ _ := raw_stands

/-- A block that is not closed, a call without its parenthesis, and a value that ends inside a token: the quoted text
goes on behind the escaped quotation mark, and the value does not. -/
theorem readers_progress_open :
    let block := "A.b\x7bc:1;;d:2"
    let call := tokens "1,2".toList
    let source := "a:\"x\\\";y\"".toList
    let colon : Token := ⟨.colon, [':'], 1, true⟩
    (∃ n ≤ 12, Loops (Content.turn block.toList) n .empty (tokens block.toList)
      (.error (.endOfInput (.token .braceClose)))) ∧
    (∃ n ≤ 4, Loops (Reading.callTurn (Reading.nextItem (Token.looseNumber? (α := Rat)))) n [] call
      (.error (.expectedNumber none, []))) ∧
    (∃ u, (tokens source)[0]? = some u ∧ colon.start = u.stop) ∧
    ∃ after, Text.dropBytes? source 2 = some ("\"x\\\"".toList ++ after) ∧ Text.dropBytes? source 6 = some after := by
  intro block call source colon
  obtain ⟨n, few, run⟩ := (readers_progress Rat).parse block
  have failed : Content.parse block = .error (.endOfInput (.token .braceClose)) := by decide +kernel
  have plain : stripComments block.toList = block.toList := by decide +kernel
  have count : (tokens block.toList).length = 12 := by decide +kernel
  rw [failed, plain] at run
  rw [plain, count] at few
  obtain ⟨m, few', run'⟩ := (readers_progress Rat).arguments.loops call
  have failed' : Transform.takeArguments (α := Rat) call = (.error (.expectedNumber none), []) := by decide +kernel
  have count' : call.length = 3 := by decide +kernel
  rw [failed'] at run'
  rw [count'] at few'
  have member : colon ∈ tokens source := by decide +kernel
  have raw : rawBehind source colon = "\"x\\\"".toList := by decide +kernel
  obtain ⟨-, after, front, behind⟩ := (readers_progress Rat).value source colon member
  rw [raw] at front behind
  obtain ⟨u, before, joins⟩ := (readers_progress Rat).joined source 1 Nat.one_pos (by decide +kernel)
  have place : (tokens source)[1]? = some colon := by decide +kernel
  exact ⟨⟨n, few, run⟩, ⟨m, few', run'⟩, ⟨u, before, (joins colon place).mp rfl⟩, after, front, behind⟩

end Stylebook
