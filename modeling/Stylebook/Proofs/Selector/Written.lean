import Stylebook.Proofs.Token.Spelling
import Stylebook.Selector.Reader

/-!
# Selectors and their written form

Not every selector survives being written and read again: a name may hold any characters, and an identifier behind
a blank is refused if it looks like a colour. `Selector.Readable` says which do. It is a condition on names and on
the tokens that simple selectors start with, and it is exact from both sides:

* the written form of a readable selector is read back, whatever follows at a distance (`Selector.read_chars`);
* whatever the reader accepts is readable (`Selector.readable_of_parse`).
-/

set_option autoImplicit false

namespace Stylebook

open Lexer

/-- The kind of the token that the written form starts with. -/
def Simple.lead : Simple → TokenKind
  | .element _ => .ident
  | .universal => .star
  | .className _ => .dot
  | .identifier name => if run isHexDigit name.toList < 3 then .hash else .hexColor
  | .pseudo _ => .colon

/-- Whether the written form is cut into the tokens that it was made of. -/
def Simple.Readable : Simple → Prop
  | .universal => True
  | .identifier name =>
    if run isHexDigit name.toList < 3 then isName name.toList = true
    else name.toList.length ≤ 8 ∧ ∀ d ∈ name.toList, isHexDigit d = true
  | .element name | .className name | .pseudo name => isName name.toList = true

structure Compound.Readable (c : Compound) : Prop where
  head : c.head.Readable
  tail : ∀ s ∈ c.tail, s.Readable ∧ s.lead.extendsCompound = true

/-- Whether a compound can be read behind a combinator. -/
def Combinator.Joins : Combinator → Compound → Prop
  | .child, _ => True
  | .descendant, c => c.head.lead.startsCompound = true

structure Selector.Readable (s : Selector) : Prop where
  head : s.head.Readable
  tail : ∀ link ∈ s.tail, link.2.Readable ∧ link.1.Joins link.2

/-- What stands at a distance from the compound in front: nothing, something behind a blank, a comma or a block. -/
def Parted (rest : List Char) : Prop :=
  ∀ c ∈ rest.head?, isSkipped c = true ∨ c = ',' ∨ c = '\x7b'

theorem Parted.stop {rest : List Char} (parted : Parted rest) : ∀ c ∈ rest.head?, isNameChar c = false := by
  intro c hc
  rcases parted c hc with blank | rfl | rfl
  · simp only [isSkipped, Bool.or_eq_true, beq_iff_eq] at blank
    rcases blank with (((rfl | rfl) | rfl) | rfl) | rfl <;> rfl
  · rfl
  · rfl

/-- The first token of what stands at a distance does not go on with a compound. -/
theorem Parted.detached {rest : List Char} (parted : Parted rest) (start : Nat) :
    ∀ t ∈ (tokensFrom (some start) start rest).head?, (t.joined && t.kind.extendsCompound) = false := by
  intro t ht
  cases rest with
  | nil => simp at ht
  | cons c rest =>
    rcases parted c rfl with blank | rfl | rfl
    · rw [tokensFrom_of_skipped blank] at ht
      have behind := (start_of_mem_tokensFrom (List.mem_of_mem_head? ht)).1
      have positive := Char.utf8Size_pos c
      have apart : t.joined = false := by
        rw [joined_of_head ht]
        simp only [beq_eq_false_iff_ne, ne_eq, Option.some.injEq]
        omega
      simp [apart]
    · rw [tokensFrom_mark rfl (by decide)] at ht
      simp only [List.head?_cons, Option.mem_some_iff] at ht
      subst ht
      exact Bool.and_false _
    · rw [tokensFrom_mark rfl (by decide)] at ht
      simp only [List.head?_cons, Option.mem_some_iff] at ht
      subst ht
      exact Bool.and_false _

/-! ## Simple selectors -/

theorem Simple.readName_tokensFrom {name : String} (named : isName name.toList = true) {rest : List Char}
    (stop : ∀ c ∈ rest.head?, isNameChar c = false) (mark : Char) (start : Nat) :
    readName mark (tokensFrom (some start) start (name.toList ++ rest)) =
      .ok (name, tokensFrom (some (start + Text.byteSize name.toList)) (start + Text.byteSize name.toList) rest) := by
  rw [tokensFrom_name named stop]
  simp [readName, Token.text]

/-- A mark and the name behind it. -/
theorem Simple.readName_mark {c : Char} {kind : TokenKind} (mark : punctuation? c = some kind) (hash : c ≠ '#')
    {name : String} (named : isName name.toList = true) {rest : List Char}
    (stop : ∀ c ∈ rest.head?, isNameChar c = false) (previous : Option Nat) (start : Nat) :
    ∃ ts, tokensFrom previous start (c :: (name.toList ++ rest)) = ⟨kind, [c], start, previous == some start⟩ :: ts ∧
      readName c ts = .ok (name, tokensFrom (some (start + (1 + Text.byteSize name.toList)))
        (start + (1 + Text.byteSize name.toList)) rest) := by
  refine ⟨_, tokensFrom_mark mark hash _ previous start, ?_⟩
  rw [readName_tokensFrom named stop, Nat.add_assoc]

/-- The written form of a simple selector starts with a token of its kind and is read back. -/
theorem Simple.read_chars {s : Simple} (readable : s.Readable) {rest : List Char}
    (stop : ∀ c ∈ rest.head?, isNameChar c = false) (previous : Option Nat) (start : Nat) :
    ∃ t ts, tokensFrom previous start (s.chars ++ rest) = t :: ts ∧ t.kind = s.lead ∧
      t.joined = (previous == some start) ∧
      read t ts =
        .ok (some (s, tokensFrom (some (start + Text.byteSize s.chars)) (start + Text.byteSize s.chars) rest)) := by
  cases s with
  | element name =>
    refine ⟨_, _, tokensFrom_name readable stop previous start, rfl, rfl, ?_⟩
    simp [read, Token.text, chars]
  | universal => exact ⟨_, _, tokensFrom_mark rfl (by decide) rest previous start, rfl, rfl, rfl⟩
  | className name =>
    obtain ⟨ts, cut, found⟩ :=
      readName_mark (show punctuation? '.' = some .dot from rfl) (by decide) readable stop previous start
    exact ⟨_, _, cut, rfl, rfl, by simp only [read, found]; rfl⟩
  | pseudo name =>
    obtain ⟨ts, cut, found⟩ :=
      readName_mark (show punctuation? ':' = some .colon from rfl) (by decide) readable stop previous start
    exact ⟨_, _, cut, rfl, rfl, by simp only [read, found]; rfl⟩
  | identifier name =>
    have stopHex := stop_of_imp stop fun _ => isNameChar_of_isHexDigit
    by_cases few : run isHexDigit name.toList < 3
    · simp only [Readable, few, if_true] at readable
      have few' : run isHexDigit (name.toList ++ rest) < 3 := by rwa [run_append stopHex]
      refine ⟨_, _, tokensFrom_hash few' previous start, (if_pos few).symm, rfl, ?_⟩
      simp only [read, readName_tokensFrom readable stop, Nat.add_assoc]
      rfl
    · simp only [Readable, few, if_false] at readable
      obtain ⟨atMost, hex⟩ := readable
      have all : run isHexDigit name.toList = name.toList.length := by
        rw [run, List.takeWhile_eq_self_iff.mpr hex]
      refine ⟨_, _, tokensFrom_color hex (by omega) atMost stopHex previous start, (if_neg few).symm, rfl, ?_⟩
      simp only [read, List.drop_succ_cons, List.drop_zero, String.ofList_toList]
      rfl

/-! ## Compounds -/

theorem Simple.head_chars_of_extends {s : Simple} (extends' : s.lead.extendsCompound = true) :
    ∃ c cs, s.chars = c :: cs ∧ isNameChar c = false := by
  cases s with
  | element => cases extends'
  | universal => cases extends'
  | className name => exact ⟨_, _, rfl, rfl⟩
  | identifier name => exact ⟨_, _, rfl, rfl⟩
  | pseudo name => exact ⟨_, _, rfl, rfl⟩

theorem Compound.readTail_stop {ts : List Token}
    (detached : ∀ t ∈ ts.head?, (t.joined && t.kind.extendsCompound) = false) : readTail ts = .ok ([], ts) := by
  cases ts with
  | nil => rw [readTail]
  | cons t ts => rw [readTail, detached t rfl]; rfl

theorem Compound.readTail_cons {t : Token} {ts rest rest' : List Token} {s : Simple} {more : List Simple}
    (goesOn : (t.joined && t.kind.extendsCompound) = true) (here : Simple.read t ts = .ok (some (s, rest)))
    (behind : readTail rest = .ok (more, rest')) : readTail (t :: ts) = .ok (s :: more, rest') := by
  rw [readTail, if_pos goesOn]
  split
  · rename_i h
    rw [here] at h
    cases h
  · rename_i h
    rw [here] at h
    cases h
  · rename_i h
    rw [here] at h
    cases h
    rw [behind]

/-- What follows a simple selector within a compound, or behind it, is no part of a name. -/
theorem Compound.stop_chars {tail : List Simple} (extending : ∀ s ∈ tail, s.lead.extendsCompound = true)
    {rest : List Char} (parted : Parted rest) :
    ∀ c ∈ (tail.flatMap Simple.chars ++ rest).head?, isNameChar c = false := by
  cases tail with
  | nil => exact parted.stop
  | cons next tail =>
    obtain ⟨c, cs, chars, other⟩ := Simple.head_chars_of_extends (extending next List.mem_cons_self)
    simp [chars, other]

theorem Compound.readTail_chars {tail : List Simple}
    (readable : ∀ s ∈ tail, s.Readable ∧ s.lead.extendsCompound = true) {rest : List Char} (parted : Parted rest)
    (start : Nat) :
    readTail (tokensFrom (some start) start (tail.flatMap Simple.chars ++ rest)) =
      .ok (tail, tokensFrom (some (start + Text.byteSize (tail.flatMap Simple.chars)))
        (start + Text.byteSize (tail.flatMap Simple.chars)) rest) := by
  induction tail generalizing start with
  | nil => exact readTail_stop (parted.detached start)
  | cons s tail ih =>
    obtain ⟨here, goesOn⟩ := readable s List.mem_cons_self
    have behind := fun x hx => readable x (List.mem_cons_of_mem s hx)
    obtain ⟨t, ts, cut, lead, joined, found⟩ :=
      Simple.read_chars here (stop_chars (fun x hx => (behind x hx).2) parted) (some start) start
    rw [List.flatMap_cons, List.append_assoc, cut, Text.byteSize_append, ← Nat.add_assoc]
    exact readTail_cons (by simp [lead, joined, goesOn]) found (ih behind _)

/-- The written form of a compound is read back. -/
theorem Compound.read_chars {c : Compound} (readable : c.Readable) {rest : List Char} (parted : Parted rest)
    (previous : Option Nat) (start : Nat) :
    ∃ t ts, tokensFrom previous start (c.chars ++ rest) = t :: ts ∧ t.kind = c.head.lead ∧
      read (t :: ts) =
        .ok (c, tokensFrom (some (start + Text.byteSize c.chars)) (start + Text.byteSize c.chars) rest) := by
  obtain ⟨t, ts, cut, lead, _, found⟩ := Simple.read_chars readable.head
    (stop_chars (fun x hx => (readable.tail x hx).2) parted) previous start
  refine ⟨t, ts, ?_, lead, ?_⟩
  · rw [← cut, chars, simples, List.flatMap_cons, List.append_assoc]
  · have tail := readTail_chars readable.tail parted (start + Text.byteSize c.head.chars)
    simp only [read, found, tail]
    rw [chars, simples, List.flatMap_cons, Text.byteSize_append, Nat.add_assoc]

/-! ## Chains -/

/-- What ends a selector: it stands apart and starts with no combinator and no compound. -/
structure Ends (rest : List Char) : Prop where
  parted : Parted rest
  ends : ∀ previous start, ∀ t ∈ (tokensFrom previous start rest).head?,
    t.kind ≠ .greaterThan ∧ t.kind.startsCompound = false

/-- The written form of the further compounds of a chain. -/
def Selector.tailChars (links : List (Combinator × Compound)) : List Char :=
  links.flatMap fun link => link.1.chars ++ link.2.chars

theorem Selector.chars_eq (s : Selector) : s.chars = s.head.chars ++ tailChars s.tail := by
  simp [chars, parts, SelectorPart.chars, tailChars, List.flatMap_assoc]

theorem Selector.readTail_stop {ts : List Token}
    (ends : ∀ t ∈ ts.head?, t.kind ≠ .greaterThan ∧ t.kind.startsCompound = false) : readTail ts = .ok ([], ts) := by
  cases ts with
  | nil => rw [readTail]
  | cons t ts =>
    obtain ⟨child, start⟩ := ends t rfl
    rw [readTail, if_neg child, start]
    rfl

theorem Selector.readTail_child {t : Token} {ts rest rest' : List Token} {c : Compound}
    {more : List (Combinator × Compound)} (child : t.kind = .greaterThan) (here : Compound.read ts = .ok (c, rest))
    (behind : readTail rest = .ok (more, rest')) : readTail (t :: ts) = .ok ((.child, c) :: more, rest') := by
  rw [readTail, if_pos child]
  split
  · rename_i h
    rw [here] at h
    cases h
  · rename_i h
    rw [here] at h
    cases h
    rw [behind]

theorem Selector.readTail_descendant {t : Token} {ts rest rest' : List Token} {c : Compound}
    {more : List (Combinator × Compound)} (start : t.kind.startsCompound = true)
    (here : Compound.read (t :: ts) = .ok (c, rest)) (behind : readTail rest = .ok (more, rest')) :
    readTail (t :: ts) = .ok ((.descendant, c) :: more, rest') := by
  have child : t.kind ≠ .greaterThan := by
    intro h
    rw [h] at start
    cases start
  rw [readTail, if_neg child, if_pos start]
  split
  · rename_i h
    rw [here] at h
    cases h
  · rename_i h
    rw [here] at h
    cases h
    rw [behind]

theorem Selector.parted_tailChars (links : List (Combinator × Compound)) {rest : List Char} (parted : Parted rest) :
    Parted (tailChars links ++ rest) := by
  cases links with
  | nil => exact parted
  | cons link links =>
    obtain ⟨combinator, c⟩ := link
    intro d hd
    cases combinator <;> simp [tailChars, Combinator.chars] at hd <;> exact .inl (hd ▸ rfl)

theorem Selector.readTail_chars {links : List (Combinator × Compound)}
    (readable : ∀ link ∈ links, link.2.Readable ∧ link.1.Joins link.2) {rest : List Char} (ends : Ends rest)
    (start : Nat) :
    readTail (tokensFrom (some start) start (tailChars links ++ rest)) =
      .ok (links, tokensFrom (some (start + Text.byteSize (tailChars links)))
        (start + Text.byteSize (tailChars links)) rest) := by
  induction links generalizing start with
  | nil => exact readTail_stop (ends.ends _ _)
  | cons link links ih =>
    obtain ⟨combinator, c⟩ := link
    have behind := ih fun x hx => readable x (List.mem_cons_of_mem _ hx)
    obtain ⟨here, joins⟩ := readable _ List.mem_cons_self
    have parted := parted_tailChars links ends.parted
    cases combinator with
    | child =>
      have text : tailChars ((.child, c) :: links) ++ rest =
          ' ' :: '>' :: ' ' :: (c.chars ++ (tailChars links ++ rest)) := by
        simp [tailChars, Combinator.chars]
      have size : start + Text.byteSize (tailChars ((.child, c) :: links)) =
          start + 1 + 1 + 1 + Text.byteSize c.chars + Text.byteSize (tailChars links) := by
        simp only [tailChars, List.flatMap_cons, Combinator.chars, Text.byteSize_append, Text.byteSize_cons,
          Text.byteSize_nil, show ' '.utf8Size = 1 from rfl, show '>'.utf8Size = 1 from rfl]
        omega
      obtain ⟨t, ts, cut, _, found⟩ := Compound.read_chars here parted (some (start + 1 + 1)) (start + 1 + 1 + 1)
      rw [text, tokensFrom_blank, tokensFrom_mark rfl (by decide), tokensFrom_blank, cut, size]
      exact readTail_child rfl found (behind _)
    | descendant =>
      have text : tailChars ((.descendant, c) :: links) ++ rest =
          ' ' :: (c.chars ++ (tailChars links ++ rest)) := by
        simp [tailChars, Combinator.chars]
      have size : start + Text.byteSize (tailChars ((.descendant, c) :: links)) =
          start + 1 + Text.byteSize c.chars + Text.byteSize (tailChars links) := by
        simp only [tailChars, List.flatMap_cons, Combinator.chars, Text.byteSize_append, Text.byteSize_cons,
          Text.byteSize_nil, show ' '.utf8Size = 1 from rfl]
        omega
      obtain ⟨t, ts, cut, lead, found⟩ := Compound.read_chars here parted (some start) (start + 1)
      rw [text, tokensFrom_blank, cut, size]
      exact readTail_descendant (lead ▸ joins) found (behind _)

/-- The written form of a readable selector is read back, and what follows is left. -/
theorem Selector.read_chars {s : Selector} (readable : s.Readable) {rest : List Char} (ends : Ends rest)
    (previous : Option Nat) (start : Nat) :
    read (tokensFrom previous start (s.chars ++ rest)) =
      .ok (s, tokensFrom (some (start + Text.byteSize s.chars)) (start + Text.byteSize s.chars) rest) := by
  obtain ⟨t, ts, cut, _, found⟩ :=
    Compound.read_chars readable.head (parted_tailChars s.tail ends.parted) previous start
  have tail := readTail_chars readable.tail ends (start + Text.byteSize s.head.chars)
  rw [chars_eq, List.append_assoc, cut, Text.byteSize_append, ← Nat.add_assoc]
  simp only [read, found, tail]

/-- A readable selector is what its written form says. -/
theorem Selector.parse_text {s : Selector} (readable : s.Readable) : parse s.text = .ok s := by
  have nothing : Ends [] := ⟨by simp [Parted], by simp⟩
  have found := read_chars readable nothing none 0
  rw [List.append_nil, tokensFrom_nil] at found
  unfold parse text
  rw [String.toList_ofList, tokens_eq, found]

/-! ## What is read is readable -/

theorem Simple.readable_readName {mark : Char} {ts rest : List Token} {name : String} (lexed : Lexed ts)
    (h : readName mark ts = .ok (name, rest)) :
    isName name.toList = true ∧ Lexed rest ∧ ∃ t, ts = t :: rest ∧ t.joined = true ∧ t.chars = name.toList := by
  cases ts with
  | nil => cases h
  | cons t ts =>
    simp only [readName] at h
    split at h
    · rename_i named
      cases h
      have spelled := lexed.1
      unfold Token.Spelled at spelled
      rw [named.1] at spelled
      exact ⟨by simpa [Token.text] using spelled, lexed.2.2, t, rfl, named.2, by simp [Token.text]⟩
    · cases h

/-- What a simple selector was read from starts with its kind of token, and the selector is readable. -/
theorem Simple.readable_of_read {t : Token} {ts rest : List Token} {s : Simple} (lexed : Lexed (t :: ts))
    (h : read t ts = .ok (some (s, rest))) : s.Readable ∧ s.lead = t.kind ∧ Lexed rest := by
  obtain ⟨spelled, behind, lexed⟩ := lexed
  have named {mark : Char} {make : String → Simple}
      (h : (readName mark ts).map (fun p => some (make p.1, p.2)) = .ok (some (s, rest))) :
      ∃ name, readName mark ts = .ok (name, rest) ∧ s = make name := by
    cases found : readName mark ts with
    | error e => simp [found, Except.map] at h
    | ok p =>
      simp only [found, Except.map, Except.ok.injEq, Option.some.injEq, Prod.mk.injEq] at h
      exact ⟨p.1, by rw [← h.2], h.1.symm⟩
  unfold read at h
  split at h
  · rename_i kind
    cases h
    unfold Token.Spelled at spelled
    rw [kind] at spelled
    exact ⟨by simpa [Readable, Token.text] using spelled, kind.symm, lexed⟩
  · rename_i kind
    cases h
    exact ⟨trivial, kind.symm, lexed⟩
  · rename_i kind
    cases h
    unfold Token.Spelled at spelled
    rw [kind] at spelled
    obtain ⟨digits, chars, atLeast, atMost, hex⟩ := spelled
    have many : ¬ run isHexDigit digits < 3 := by
      rw [run, List.takeWhile_eq_self_iff.mpr hex]
      omega
    have name : (String.ofList (t.chars.drop 1)).toList = digits := by rw [chars, String.toList_ofList]; rfl
    refine ⟨?_, ?_, lexed⟩
    · simp only [Readable, name, many, if_false]
      exact ⟨atMost, hex⟩
    · simp only [lead, name, many, if_false]
      exact kind.symm
  · rename_i kind
    obtain ⟨name, found, rfl⟩ := named h
    obtain ⟨readable, lexed, _⟩ := readable_readName lexed found
    exact ⟨readable, kind.symm, lexed⟩
  · rename_i kind
    obtain ⟨name, found, rfl⟩ := named h
    obtain ⟨readable, rest', u, rfl, joined, chars⟩ := readable_readName lexed found
    have few := behind kind u rfl joined
    rw [chars] at few
    refine ⟨?_, ?_, rest'⟩
    · simp only [Readable, few, if_true]
      exact readable
    · simp only [lead, few, if_true]
      exact kind.symm
  · rename_i kind
    obtain ⟨name, found, rfl⟩ := named h
    obtain ⟨readable, lexed, _⟩ := readable_readName lexed found
    exact ⟨readable, kind.symm, lexed⟩
  · cases h

theorem Compound.readable_of_readTail {ts rest : List Token} {more : List Simple} (lexed : Lexed ts)
    (h : readTail ts = .ok (more, rest)) :
    (∀ s ∈ more, s.Readable ∧ s.lead.extendsCompound = true) ∧ Lexed rest := by
  fun_induction readTail ts generalizing more rest with
  | case1 =>
    cases h
    exact ⟨by simp, lexed⟩
  | case2 => cases h
  | case3 =>
    cases h
    exact ⟨by simp, lexed⟩
  | case4 => cases h
  | case5 t ts goesOn s r found m r' tail ih =>
    cases h
    obtain ⟨readable, lead, lexed⟩ := Simple.readable_of_read lexed found
    obtain ⟨readables, lexed⟩ := ih lexed tail
    have extending : s.lead.extendsCompound = true := lead ▸ ((Bool.and_eq_true _ _).mp goesOn).2
    exact ⟨fun x hx => (List.mem_cons.mp hx).elim (fun h => h ▸ ⟨readable, extending⟩) (readables x), lexed⟩
  | case6 =>
    cases h
    exact ⟨by simp, lexed⟩

theorem Compound.readable_of_read {t : Token} {ts rest : List Token} {c : Compound} (lexed : Lexed (t :: ts))
    (h : read (t :: ts) = .ok (c, rest)) : c.Readable ∧ c.head.lead = t.kind ∧ Lexed rest := by
  simp only [read] at h
  split at h
  · cases h
  · cases h
  · rename_i s r found
    obtain ⟨readable, lead, lexed⟩ := Simple.readable_of_read lexed found
    split at h
    · cases h
    · rename_i m r' tail
      cases h
      obtain ⟨readables, lexed⟩ := readable_of_readTail lexed tail
      exact ⟨⟨readable, readables⟩, lead, lexed⟩

theorem Selector.readable_of_readTail {ts rest : List Token} {more : List (Combinator × Compound)}
    (lexed : Lexed ts) (h : readTail ts = .ok (more, rest)) :
    (∀ link ∈ more, link.2.Readable ∧ link.1.Joins link.2) ∧ Lexed rest := by
  fun_induction readTail ts generalizing more rest with
  | case1 =>
    cases h
    exact ⟨by simp, lexed⟩
  | case2 => cases h
  | case3 => cases h
  | case4 t ts child c r found m r' tail ih =>
    cases h
    cases ts with
    | nil => cases found
    | cons u ts =>
      obtain ⟨readable, _, lexed⟩ := Compound.readable_of_read lexed.2.2 found
      obtain ⟨readables, lexed⟩ := ih lexed tail
      exact ⟨fun x hx => (List.mem_cons.mp hx).elim (fun h => h ▸ ⟨readable, trivial⟩) (readables x), lexed⟩
  | case5 => cases h
  | case6 => cases h
  | case7 t ts _ start c r found m r' tail ih =>
    cases h
    obtain ⟨readable, lead, lexed⟩ := Compound.readable_of_read lexed found
    obtain ⟨readables, lexed⟩ := ih lexed tail
    have joins : Combinator.Joins .descendant c := by
      show c.head.lead.startsCompound = true
      rw [lead]
      exact start
    exact ⟨fun x hx => (List.mem_cons.mp hx).elim (fun h => h ▸ ⟨readable, joins⟩) (readables x), lexed⟩
  | case8 =>
    cases h
    exact ⟨by simp, lexed⟩

theorem Selector.readable_of_read {ts rest : List Token} {s : Selector} (lexed : Lexed ts)
    (h : read ts = .ok (s, rest)) : s.Readable ∧ Lexed rest := by
  unfold read at h
  split at h
  · cases h
  · rename_i c r found
    split at h
    · cases h
    · rename_i m r' tail
      cases h
      cases ts with
      | nil => cases found
      | cons t ts =>
        obtain ⟨readable, _, lexed⟩ := Compound.readable_of_read lexed found
        obtain ⟨readables, lexed⟩ := readable_of_readTail lexed tail
        exact ⟨⟨readable, readables⟩, lexed⟩

/-- Every selector that is the reading of a text can be written and read again. -/
theorem Selector.readable_of_parse {text : String} {s : Selector} (h : parse text = .ok s) : s.Readable := by
  unfold parse at h
  split at h
  · cases h
  · rename_i found
    cases h
    exact (readable_of_read (lexed_tokensFrom none 0 text.toList) found).1
  · cases h

end Stylebook
