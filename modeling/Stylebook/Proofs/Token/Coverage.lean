import Mathlib.Data.List.Pairwise
import Stylebook.Proofs.Token.Pattern

/-!
# Every character is accounted for

The pieces of a text follow each other without a gap, and what each of them is can be said without the lexer: a token is
the longest word of any pattern that stands at its place, what is skipped is one blank, and a fault stands where no
pattern has a word at all (`justified_of_mem_scan`). How far a fault reaches is a list of four cases, `Misfit`.

All this is shown of the first piece of a text and carried along the text by the recursion of `scan`. The tokens are
those pieces that are tokens (`tokens_pieces`), so they inherit it, and the strict reading of a text only has to look at
the first fault. The result for whole texts is `accounted`.
-/

set_option autoImplicit false

namespace Stylebook.Lexer

open Pattern
open scoped Computability

/-! ## What may stand at a place -/

/-- No token of any kind starts the text. -/
def Unmatched (cs : List Char) : Prop :=
  ∀ (kind : TokenKind), ∀ v ∈ kind.pattern, ¬v <+: cs

/-- Where `rest` follows, `w` is a word of the kind, no pattern has a longer one, and no other pattern has one of the
same length. -/
def Longest (kind : TokenKind) (w rest : List Char) : Prop :=
  w ∈ kind.pattern ∧ ∀ (other : TokenKind), ∀ v ∈ other.pattern, v <+: w ++ rest →
    v.length ≤ w.length ∧ (v.length = w.length → other = kind)

/-- What a fault takes where `rest` follows: one character, unless it is a quote. Behind a quote, it takes all that may
stand between quotes, and this goes up to the end of the text or to a backslash that nothing can be read with, because
the text ends behind it or a line feed follows. -/
inductive Misfit : List Char → List Char → Prop
  | character {c : Char} (plain : Text.isQuote c = false) (black : isSkipped c = false) (rest : List Char) :
      Misfit [c] rest
  | unended {q : Char} {body : List Char} (quote : Text.isQuote q = true) (inside : body ∈ (quotable q)∗) :
      Misfit (q :: body) []
  | dangling {q : Char} {body : List Char} (quote : Text.isQuote q = true) (inside : body ∈ (quotable q)∗) :
      Misfit (q :: (body ++ ['\\'])) []
  | broken {q : Char} {body : List Char} (quote : Text.isQuote q = true) (inside : body ∈ (quotable q)∗)
      (rest : List Char) : Misfit (q :: (body ++ ['\\'])) ('\n' :: rest)

/-- What the kind of a piece says about its characters, where `rest` follows. -/
def Justified (w rest : List Char) : PieceKind → Prop
  | .token kind => Longest kind w rest
  | .skipped => ∃ c, w = [c] ∧ isSkipped c = true
  | .fault => Misfit w rest ∧ Unmatched (w ++ rest)

theorem longest_of_recognize {c : Char} {cs : List Char} {kind : TokenKind} {n : Nat}
    (found : recognize c cs = (some kind, n)) : Longest kind (c :: cs.take n) (cs.drop n) := by
  have length : (c :: cs.take n).length = n + 1 := by
    have within := recognize_le c cs
    rw [found] at within
    rw [List.length_cons, List.length_take_of_le within]
  refine ⟨mem_pattern_of_recognize found, fun other v hv stands => ?_⟩
  rw [List.cons_append, List.take_append_drop] at stands
  obtain ⟨kind', n', found', atLeast, same⟩ := takes_of_mem_pattern hv stands
  rw [found] at found'
  cases found'
  rw [length]
  exact ⟨atLeast, fun equal => (same equal).symm⟩

theorem unmatched_of_recognize {c : Char} {cs : List Char} {n : Nat} (found : recognize c cs = (none, n)) :
    Unmatched (c :: cs) := by
  intro kind v hv stands
  obtain ⟨kind', n', found', -⟩ := takes_of_mem_pattern hv stands
  rw [found] at found'
  cases found'

theorem misfit_of_quotedLength {q : Char} {cs : List Char} {n : Nat} (quote : Text.isQuote q = true)
    (unfinished : quotedLength q cs = (false, n)) : Misfit (q :: cs.take n) (cs.drop n) := by
  obtain ⟨body, inside, rest, rfl, stops⟩ := exists_body q cs
  rw [quotedLength_body inside] at unfinished
  obtain ⟨unfinished, rfl⟩ := Prod.mk.inj unfinished
  rw [List.take_length_add_append, List.drop_length_add_append]
  cases stops with
  | unended => simpa [quotedLength] using Misfit.unended quote inside
  | dangling => simpa [quotedLength] using Misfit.dangling quote inside
  | broken rest => simpa [quotedLength] using Misfit.broken quote inside rest
  | closed rest =>
    have slash : q ≠ '\\' := by
      rintro rfl
      cases quote
    rw [quotedLength_quote slash] at unfinished
    cases unfinished

theorem misfit_of_recognize {c : Char} {cs : List Char} {n : Nat} (black : isSkipped c = false)
    (found : recognize c cs = (none, n)) : Misfit (c :: cs.take n) (cs.drop n) := by
  cases quote : Text.isQuote c with
  | false =>
    obtain rfl := recognize_eq_none quote found
    exact Misfit.character quote black _
  | true =>
    refine misfit_of_quotedLength quote ?_
    have read (kind : TokenKind) (h : quotedFrom c kind cs = (none, n)) : quotedLength c cs = (false, n) := by
      obtain ⟨closed, length⟩ := Prod.mk.inj h
      cases state : (quotedLength c cs).1 with
      | true => simp [state] at closed
      | false => exact Prod.ext state length
    simp only [Text.isQuote, Bool.or_eq_true, beq_iff_eq] at quote
    rcases quote with rfl | rfl
    · exact read .doubleQuoted found
    · exact read .singleQuoted found

theorem justified_of_firstPiece {c : Char} {cs : List Char} {kind : PieceKind} {n : Nat}
    (first : firstPiece c cs = (kind, n)) : Justified (c :: cs.take n) (cs.drop n) kind := by
  cases skipped : isSkipped c with
  | true =>
    rw [firstPiece_of_skipped skipped] at first
    cases first
    exact ⟨c, rfl, skipped⟩
  | false =>
    cases found : recognize c cs with
    | mk token m =>
      cases token with
      | some token =>
        rw [firstPiece_of_some skipped found] at first
        cases first
        exact longest_of_recognize found
      | none =>
        rw [firstPiece_of_none skipped found] at first
        cases first
        refine ⟨misfit_of_recognize skipped found, ?_⟩
        rw [List.cons_append, List.take_append_drop]
        exact unmatched_of_recognize found

/-! ## The pieces of a text -/

/-- In the text `cs`, `w` stands at the byte offset `start`, and `rest` behind it. -/
def Stands (cs w : List Char) (start : Nat) (rest : List Char) : Prop :=
  ∃ front, cs = front ++ (w ++ rest) ∧ start = Text.byteSize front

theorem Stands.stop_le {cs w rest : List Char} {start : Nat} (h : Stands cs w start rest) :
    start + Text.byteSize w ≤ Text.byteSize cs := by
  obtain ⟨front, rfl, rfl⟩ := h
  rw [Text.byteSize_append, Text.byteSize_append]
  omega

def Piece.stop (p : Piece) : Nat :=
  p.start + Text.byteSize p.chars

theorem start_lt_stop {start : Nat} {cs : List Char} {p : Piece} (h : p ∈ scan start cs) : p.start < p.stop := by
  fun_induction scan start cs with
  | case1 => cases h
  | case2 start c cs kind n first chars ih =>
    rcases List.mem_cons.mp h with rfl | h
    · have positive := Char.utf8Size_pos c
      simp only [Piece.stop, chars, Text.byteSize_cons]
      omega
    · exact ih h

/-- Each piece stands at its place and is what its kind says. -/
theorem justified_of_mem_scan {start : Nat} {cs : List Char} {p : Piece} (h : p ∈ scan start cs) :
    ∃ front rest, cs = front ++ (p.chars ++ rest) ∧ p.start = start + Text.byteSize front ∧
      Justified p.chars rest p.kind := by
  fun_induction scan start cs with
  | case1 => cases h
  | case2 start c cs kind n first chars ih =>
    rcases List.mem_cons.mp h with rfl | h
    · exact ⟨[], cs.drop n, by simp [chars], rfl, justified_of_firstPiece first⟩
    · obtain ⟨front, rest, whole, place, justified⟩ := ih h
      refine ⟨chars ++ front, rest, ?_, ?_, justified⟩
      · rw [List.append_assoc, ← whole, List.cons_append, List.take_append_drop]
      · rw [place, Text.byteSize_append, Nat.add_assoc]

/-- No piece starts before the one in front of it has ended. -/
theorem scan_ordered (start : Nat) (cs : List Char) :
    (scan start cs).Pairwise fun p q => p.stop ≤ q.start := by
  fun_induction scan start cs with
  | case1 => exact .nil
  | case2 start c cs kind n first chars ih => exact .cons (fun q hq => (start_of_mem_scan hq).1) ih

/-- Every character lies in a piece. -/
theorem exists_piece_of_char (start : Nat) (cs : List Char) : ∀ (front back : List Char) (c : Char),
    cs = front ++ c :: back → ∃ p ∈ scan start cs, c ∈ p.chars ∧ p.start ≤ start + Text.byteSize front ∧
      start + Text.byteSize front < p.stop := by
  fun_induction scan start cs with
  | case1 => simp
  | case2 start d cs kind n first chars ih =>
    intro front back c h
    have split : chars ++ cs.drop n = front ++ c :: back := by
      rw [← h, List.cons_append, List.take_append_drop]
    have next (front' : List Char) (before : front = chars ++ front') (later : cs.drop n = front' ++ c :: back) :
        ∃ p ∈ ⟨kind, chars, start⟩ :: scan (start + Text.byteSize chars) (cs.drop n), c ∈ p.chars ∧
          p.start ≤ start + Text.byteSize front ∧ start + Text.byteSize front < p.stop := by
      obtain ⟨p, hp, mem, before', after⟩ := ih front' back c later
      rw [before, Text.byteSize_append]
      exact ⟨p, List.mem_cons_of_mem _ hp, mem, by omega, by omega⟩
    rcases List.append_eq_append_iff.mp split with ⟨front', before, later⟩ | ⟨here, inside, behind⟩
    · exact next front' before later
    · cases here with
      | nil => exact next [] (by simp [inside]) behind.symm
      | cons e here =>
        obtain ⟨rfl, rfl⟩ := List.cons.inj behind
        refine ⟨_, List.mem_cons_self, by simp [inside], by simp, ?_⟩
        have positive := Char.utf8Size_pos c
        simp only [Piece.stop, inside, Text.byteSize_append, Text.byteSize_cons]
        omega

/-! ## Tokens and faults -/

/-- The faults of a text, in their order. -/
def faults (cs : List Char) : List Piece :=
  (scan 0 cs).filter (·.kind == .fault)

/-- The piece that a token was. -/
def piece (t : Token) : Piece :=
  ⟨.token t.kind, t.chars, t.start⟩

def Piece.isToken (p : Piece) : Bool :=
  match p.kind with
  | .token _ => true
  | _ => false

theorem tokensOf_pieces (previous : Option Nat) (ps : List Piece) :
    (tokensOf previous ps).map piece = ps.filter Piece.isToken := by
  induction ps generalizing previous with
  | nil => rfl
  | cons p ps ih =>
    obtain ⟨kind, chars, start⟩ := p
    cases kind with
    | token kind => rw [List.filter_cons_of_pos rfl, ← ih, tokensOf, List.map_cons, piece]
    | skipped => simp [tokensOf, Piece.isToken, ih]
    | fault => simp [tokensOf, Piece.isToken, ih]

/-- The tokens of a text are those of its pieces that are tokens, in the same order. -/
theorem tokens_pieces (cs : List Char) : (tokens cs).map piece = (scan 0 cs).filter Piece.isToken :=
  tokensOf_pieces none _

theorem mem_faults {cs : List Char} {e : Piece} : e ∈ faults cs ↔ e ∈ scan 0 cs ∧ e.kind = .fault := by
  simp [faults]

theorem tokensStrict_eq (cs : List Char) :
    tokensStrict cs = match faults cs with
      | [] => .ok (tokens cs)
      | e :: _ => .error e.start := by
  have first : firstFault? cs = (faults cs).head?.map (·.start) := by
    rw [faults, List.head?_filter]
    rfl
  rw [tokensStrict, first]
  cases faults cs <;> rfl

theorem stands_of_mem_scan {cs : List Char} {p : Piece} (h : p ∈ scan 0 cs) :
    ∃ rest, Stands cs p.chars p.start rest ∧ Justified p.chars rest p.kind := by
  obtain ⟨front, rest, whole, place, justified⟩ := justified_of_mem_scan h
  exact ⟨rest, ⟨front, whole, by omega⟩, justified⟩

theorem tokens_ordered (cs : List Char) : (tokens cs).Pairwise fun t u => t.stop ≤ u.start := by
  have pieces := (scan_ordered 0 cs).filter Piece.isToken
  rw [← tokens_pieces, List.pairwise_map] at pieces
  exact pieces

theorem token_apart_fault {cs : List Char} {t : Token} {e : Piece} (ht : t ∈ tokens cs) (he : e ∈ faults cs) :
    t.stop ≤ e.start ∨ e.stop ≤ t.start := by
  obtain ⟨inside, fault⟩ := mem_faults.mp he
  have either : (scan 0 cs).Pairwise fun p q => p.stop ≤ q.start ∨ q.stop ≤ p.start :=
    (scan_ordered 0 cs).imp .inl
  have differ : piece t ≠ e := by
    rintro rfl
    cases fault
  have : Std.Symm fun p q : Piece => p.stop ≤ q.start ∨ q.stop ≤ p.start := ⟨fun _ _ => Or.symm⟩
  exact either.forall (mem_tokensOf ht) inside differ

/-- Each character lies in a token or in a fault, or is skipped. -/
theorem covered {cs front back : List Char} {c : Char} (split : cs = front ++ c :: back) :
    (∃ t ∈ tokens cs, t.start ≤ Text.byteSize front ∧ Text.byteSize front < t.stop) ∨
    (∃ e ∈ faults cs, e.start ≤ Text.byteSize front ∧ Text.byteSize front < e.stop) ∨ isSkipped c = true := by
  obtain ⟨p, hp, inside, before, after⟩ := exists_piece_of_char 0 cs front back c split
  obtain ⟨rest, -, justified⟩ := stands_of_mem_scan hp
  cases kind : p.kind with
  | token k =>
    obtain ⟨t, ht, -, chars, start⟩ := exists_mem_tokensOf kind hp none
    have stop : t.stop = p.stop := by rw [Token.stop, chars, start, Piece.stop]
    exact .inl ⟨t, ht, by omega, by omega⟩
  | skipped =>
    rw [kind] at justified
    obtain ⟨d, chars, skipped⟩ := justified
    rw [chars, List.mem_singleton] at inside
    exact .inr (.inr (inside ▸ skipped))
  | fault => exact .inr (.inl ⟨p, mem_faults.mpr ⟨hp, kind⟩, by omega, by omega⟩)

/-- A word of a pattern, alone in a text, is one token. -/
theorem tokensStrict_of_mem_pattern {kind : TokenKind} {w : List Char} (h : w ∈ kind.pattern) :
    tokensStrict w = .ok [⟨kind, w, 0, false⟩] := by
  cases w with
  | nil =>
    obtain ⟨_, _, found, -⟩ := takes_of_mem_pattern h (List.nil_prefix : [] <+: [' '])
    cases found
  | cons c cs =>
    obtain ⟨kind', n, found, atLeast, same⟩ := takes_of_mem_pattern h List.prefix_rfl
    have within := recognize_le c cs
    rw [found] at within
    obtain rfl : n = cs.length := by
      rw [List.length_cons] at atLeast
      omega
    obtain rfl := same rfl
    have black : isSkipped c = false := by
      by_contra skipped
      simp only [isSkipped, Bool.not_eq_false, Bool.or_eq_true, beq_iff_eq] at skipped
      rcases skipped with (((rfl | rfl) | rfl) | rfl) | rfl <;> cases found
    have cut : scan 0 (c :: cs) = [⟨.token kind', c :: cs, 0⟩] := by
      rw [scan, firstPiece_of_some black found]
      simp [scan]
    refine tokensStrict_eq_ok_iff.mpr ⟨by simp [Sound, cut], ?_⟩
    rw [tokens, cut]
    rfl

/-- Tokens and faults cover all of a text but its blanks, each at a place where nothing else could have been taken. -/
structure Accounted (cs : List Char) : Prop where
  /-- Each token stands at its offsets and is the longest that can stand there. -/
  token : ∀ t ∈ tokens cs, t.start < t.stop ∧ t.stop ≤ Text.byteSize cs ∧
    ∃ rest, Stands cs t.chars t.start rest ∧ Longest t.kind t.chars rest
  /-- Each fault stands where no token can, and takes as much as a fault should. -/
  fault : ∀ e ∈ faults cs, ∃ rest, Stands cs e.chars e.start rest ∧ Unmatched (e.chars ++ rest) ∧
    Misfit e.chars rest
  tokens_ordered : (tokens cs).Pairwise fun t u => t.stop ≤ u.start
  faults_ordered : (faults cs).Pairwise fun e f => e.stop ≤ f.start
  apart : ∀ t ∈ tokens cs, ∀ e ∈ faults cs, t.stop ≤ e.start ∨ e.stop ≤ t.start
  /-- Each character lies in a token or in a fault, or is skipped. -/
  character : ∀ front c back, cs = front ++ c :: back →
    (∃ t ∈ tokens cs, t.start ≤ Text.byteSize front ∧ Text.byteSize front < t.stop) ∨
    (∃ e ∈ faults cs, e.start ≤ Text.byteSize front ∧ Text.byteSize front < e.stop) ∨ isSkipped c = true
  /-- Reading strictly, the first fault is the answer, and without one the tokens are. -/
  strict : tokensStrict cs = match faults cs with
    | [] => .ok (tokens cs)
    | e :: _ => .error e.start

/-- **Every character of every text is accounted for.** -/
theorem accounted (cs : List Char) : Accounted cs where
  token t ht := by
    obtain ⟨rest, stands, longest⟩ := stands_of_mem_scan (mem_tokensOf ht)
    exact ⟨start_lt_stop (mem_tokensOf ht), stands.stop_le, rest, stands, longest⟩
  fault e he := by
    obtain ⟨inside, fault⟩ := mem_faults.mp he
    obtain ⟨rest, stands, justified⟩ := stands_of_mem_scan inside
    rw [fault] at justified
    exact ⟨rest, stands, justified.2, justified.1⟩
  tokens_ordered := tokens_ordered cs
  faults_ordered := (scan_ordered 0 cs).filter _
  apart _ ht _ he := token_apart_fault ht he
  character _ _ _ split := covered split
  strict := tokensStrict_eq cs

end Stylebook.Lexer
