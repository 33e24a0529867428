import Stylebook.Content.Reader
import Stylebook.Proofs.Content.Enclosed
import Stylebook.Proofs.Text.Trimming

/-!
# The value behind a colon

Behind a colon the reader leaves the tokens, takes raw text up to the next semicolon or closing brace, and has to find
the place among the tokens again. It does find it, if the text keeps to itself and if the lexer leaves no quoted text of
it open (`readColonValue_terminated`): the tokens of the text start before its end, and the next one behind is that
semicolon or brace.

A reader is given tokens, but it also needs to know where they stand in the text. `Behind front rest ts` says that
`ts` are the tokens of `rest` where `rest` stands behind `front`, and a reader that has taken the text `cs` leaves
tokens behind `front ++ cs`. The lemmas about readers have this one form.
-/

set_option autoImplicit false

namespace Stylebook

open Lexer

/-! ## Tokens and their place -/

/-- The tokens of the text `rest` that stands behind the text `front`. -/
def Behind (front rest : List Char) (ts : List Token) : Prop :=
  ∃ previous, ts = tokensFrom previous (Text.byteSize front) rest

theorem behind_append (front cs rest : List Char) (previous : Option Nat) :
    Behind (front ++ cs) rest (tokensFrom previous (Text.byteSize front + Text.byteSize cs) rest) :=
  ⟨previous, by rw [Text.byteSize_append]⟩

theorem behind_nil (cs : List Char) : Behind [] cs (tokens cs) := ⟨none, rfl⟩

theorem Behind.skip {front gap rest : List Char} {ts : List Token} (blank : ∀ c ∈ gap, isSkipped c = true)
    (h : Behind front (gap ++ rest) ts) : Behind (front ++ gap) rest ts := by
  obtain ⟨previous, rfl⟩ := h
  rw [tokensFrom_blanks blank]
  exact behind_append ..

theorem Behind.blank {front rest : List Char} {ts : List Token} (h : Behind front (' ' :: rest) ts) :
    Behind (front ++ [' ']) rest ts :=
  Behind.skip (by simp [isSkipped]) (show Behind front ([' '] ++ rest) ts from h)

theorem Behind.mark {front rest : List Char} {c : Char} {kind : TokenKind} {ts : List Token}
    (mark : punctuation? c = some kind) (hash : c ≠ '#') (h : Behind front (c :: rest) ts) :
    ∃ t ts', ts = t :: ts' ∧ t.kind = kind ∧ t.stop = Text.byteSize (front ++ [c]) ∧
      Behind (front ++ [c]) rest ts' := by
  obtain ⟨previous, rfl⟩ := h
  have size : c.utf8Size = 1 := by
    unfold punctuation? at mark
    split at mark <;> first | rfl | cases mark
  refine ⟨_, _, tokensFrom_mark mark hash rest previous _, rfl, by simp [Token.stop], ?_⟩
  have behind := behind_append front [c] rest (some (Text.byteSize front + 1))
  rwa [Text.byteSize_cons, size] at behind

theorem Behind.name {front name rest : List Char} {ts : List Token} (named : isName name = true)
    (stop : ∀ c ∈ rest.head?, isNameChar c = false) (h : Behind front (name ++ rest) ts) :
    ∃ t ts', ts = t :: ts' ∧ t.kind = .ident ∧ t.chars = name ∧ Behind (front ++ name) rest ts' := by
  obtain ⟨previous, rfl⟩ := h
  exact ⟨_, _, tokensFrom_name named stop previous _, rfl, rfl, behind_append ..⟩

theorem Behind.reference {front name rest : List Char} {ts : List Token} (named : isName name = true)
    (stop : ∀ c ∈ rest.head?, isNameChar c = false) (h : Behind front ('@' :: (name ++ rest)) ts) :
    ∃ t ts', ts = t :: ts' ∧ t.kind = .reference ∧ t.chars = '@' :: name ∧
      Behind (front ++ '@' :: name) rest ts' := by
  obtain ⟨previous, rfl⟩ := h
  exact ⟨_, _, tokensFrom_reference named stop previous _, rfl, rfl, behind_append ..⟩

/-- Where two texts meet, the tokens of the front one end before the other starts. -/
theorem Behind.split {front cs rest : List Char} {ts : List Token} (apart : Apart rest) (finished : Finished cs)
    (h : Behind front (cs ++ rest) ts) :
    ∃ early late, ts = early ++ late ∧ (∀ t ∈ early, t.start < Text.byteSize (front ++ cs)) ∧
      Behind (front ++ cs) rest late := by
  obtain ⟨previous, rfl⟩ := h
  obtain ⟨last, cut⟩ := tokensFrom_append finished previous (Text.byteSize front)
  rw [Text.byteSize_append]
  exact ⟨_, _, cut rest apart, fun t ht => (start_of_mem_tokensFrom ht).2, behind_append ..⟩

/-! ## Values -/

/-- The tokens before the offset are passed over, and a semicolon that is the next one. -/
theorem resumeAt_terminator {stop : Nat} {early rest : List Token} {t : Token} (before : ∀ u ∈ early, u.start < stop)
    (behind : stop ≤ t.start) :
    resumeAt stop (early ++ t :: rest) = if t.kind = .semicolon then rest else t :: rest := by
  have here : ¬t.start < stop := by omega
  unfold resumeAt
  rw [List.dropWhile_append_of_pos (by simpa using before), List.dropWhile_cons_of_neg (by simpa using here)]

theorem punctuation?_of_terminator {c : Char} (terminator : c = ';' ∨ c = '\x7d') :
    ∃ kind, punctuation? c = some kind ∧ c ≠ '#' := by
  rcases terminator with rfl | rfl
  · exact ⟨.semicolon, rfl, by decide⟩
  · exact ⟨.braceClose, rfl, by decide⟩

theorem apart_of_terminator {c : Char} (terminator : c = ';' ∨ c = '\x7d') (rest : List Char) : Apart (c :: rest) := by
  intro d hd
  obtain rfl : c = d := by simpa using hd
  rcases terminator with rfl | rfl <;> rfl

/-- An enclosed text between a colon and the end of a value is the value, blanks at its ends apart. The end is passed
over if it is a semicolon. -/
theorem readColonValue_terminated {front raw rest : List Char} {c : Char} {ts : List Token}
    (terminator : c = ';' ∨ c = '\x7d') (enclosed : Enclosed raw) (finished : Finished raw)
    (value : Text.trim raw ≠ []) (h : Behind front (':' :: (raw ++ c :: rest)) ts) :
    ∃ t ts', readColonValue (front ++ ':' :: (raw ++ c :: rest)) ts =
        .ok (String.ofList (Text.trim raw), if t.kind = .semicolon then ts' else t :: ts') ∧
      punctuation? c = some t.kind ∧ Behind (front ++ ':' :: (raw ++ [c])) rest ts' := by
  obtain ⟨colon, ts, rfl, kind, stop, h⟩ := h.mark rfl (by decide)
  obtain ⟨early, late, rfl, before, h⟩ := h.split (apart_of_terminator terminator rest) finished
  have start : ∀ t ∈ late.head?, Text.byteSize (front ++ [':'] ++ raw) ≤ t.start := by
    obtain ⟨previous, rfl⟩ := h
    exact fun t ht => (start_of_mem_tokensFrom (List.mem_of_mem_head? ht)).1
  obtain ⟨last, mark, hash⟩ := punctuation?_of_terminator terminator
  obtain ⟨t, ts, rfl, kind', _, h⟩ := h.mark mark hash
  have behind : rawBehind (front ++ ':' :: (raw ++ c :: rest)) colon = raw := by
    rw [rawBehind, stop, List.append_cons, Text.dropBytes?_append, Option.getD_some, enclosed.rawPart_append,
      rawPart_terminator terminator, List.append_nil]
  have resumed : resumeAt (colon.stop + Text.byteSize raw) (early ++ t :: ts) =
      if t.kind = .semicolon then ts else t :: ts := by
    rw [stop, ← Text.byteSize_append]
    exact resumeAt_terminator before (start t rfl)
  refine ⟨t, ts, ?_, kind' ▸ mark, by simpa using h⟩
  simp only [readColonValue, Token.expect, kind, if_true, readValue, behind, resumed]

/-- A value in front of a semicolon. -/
theorem readColonValue_enclosed {front raw rest : List Char} {ts : List Token} (enclosed : Enclosed raw)
    (finished : Finished raw) (value : Text.trim raw ≠ []) (h : Behind front (':' :: (raw ++ ';' :: rest)) ts) :
    ∃ ts', readColonValue (front ++ ':' :: (raw ++ ';' :: rest)) ts = .ok (String.ofList (Text.trim raw), ts') ∧
      Behind (front ++ ':' :: (raw ++ [';'])) rest ts' := by
  obtain ⟨t, ts', found, mark, h⟩ := readColonValue_terminated (.inl rfl) enclosed finished value h
  rw [if_pos (Option.some.inj mark).symm] at found
  exact ⟨ts', found, h⟩

/-- A value in front of the brace that closes its block. -/
theorem readColonValue_last {front raw rest : List Char} {ts : List Token} (enclosed : Enclosed raw)
    (finished : Finished raw) (value : Text.trim raw ≠ []) (h : Behind front (':' :: (raw ++ '\x7d' :: rest)) ts) :
    ∃ t ts', readColonValue (front ++ ':' :: (raw ++ '\x7d' :: rest)) ts =
        .ok (String.ofList (Text.trim raw), t :: ts') ∧
      t.kind = .braceClose ∧ Behind (front ++ ':' :: (raw ++ ['\x7d'])) rest ts' := by
  obtain ⟨t, ts', found, mark, h⟩ := readColonValue_terminated (.inr rfl) enclosed finished value h
  have kind : t.kind = .braceClose := (Option.some.inj mark).symm
  rw [if_neg (by rw [kind]; decide)] at found
  exact ⟨t, ts', found, kind, h⟩

end Stylebook
