import Stylebook.Content.Comments
import Stylebook.Proofs.Token.Spelling

/-!
# Text whose quotes are closed

The scans for comments and for the end of a value keep count of the open quote. A text is `Balanced` if they come out
of it with no quote open. The lexer has its own idea of where a quoted text ends, but a text without backslashes it cuts
at places where the other scans are outside quotes too (`Balanced.drop_firstPiece`), so it leaves nothing open in a
balanced text (`Balanced.finished`).
-/

set_option autoImplicit false

namespace Stylebook

open Lexer

theorem quoteAfter_of_isQuote {q : Char} (quote : Text.isQuote q = true) : quoteAfter none q = some q := by
  simp only [Text.isQuote, Bool.or_eq_true, beq_iff_eq] at quote
  exact if_pos quote

theorem quoteAfter_of_not_isQuote {c : Char} (quote : Text.isQuote c = false) : quoteAfter none c = none := by
  simp only [Text.isQuote, Bool.or_eq_false_iff, beq_eq_false_iff_ne] at quote
  exact if_neg (by simp [quote])

/-- No quote is open behind the text if none is open before it. -/
def Balanced (cs : List Char) : Prop :=
  cs.foldl quoteAfter none = none

theorem balanced_append_of_plain {front cs : List Char} (plain : ∀ c ∈ front, Text.isQuote c = false) :
    Balanced (front ++ cs) ↔ Balanced cs := by
  induction front with
  | nil => rfl
  | cons c front ih =>
    rw [← ih fun x hx => plain x (List.mem_cons_of_mem c hx), Balanced, List.cons_append, List.foldl_cons,
      quoteAfter_of_not_isQuote (plain c List.mem_cons_self), Balanced]

/-- A quote stays open up to the next quote of its kind. -/
theorem foldl_quoteAfter_open {q : Char} {cs : List Char} (never : q ∉ cs) : cs.foldl quoteAfter (some q) = some q := by
  induction cs with
  | nil => rfl
  | cons c cs ih =>
    have other : c ≠ q := fun h => never (h ▸ List.mem_cons_self)
    rw [List.foldl_cons, quoteAfter, if_neg other, ih fun h => never (List.mem_cons_of_mem c h)]

theorem balanced_quoted {q : Char} {inner : List Char} (quote : Text.isQuote q = true) (inside : q ∉ inner)
    (cs : List Char) : Balanced (q :: (inner ++ q :: cs)) ↔ Balanced cs := by
  have closed : quoteAfter (some q) q = none := if_pos rfl
  rw [Balanced, List.foldl_cons, quoteAfter_of_isQuote quote, List.foldl_append, foldl_quoteAfter_open inside,
    List.foldl_cons, closed, Balanced]

theorem Balanced.quotation {q : Char} {cs : List Char} (balanced : Balanced (q :: cs))
    (quote : Text.isQuote q = true) : ∃ inner rest, cs = inner ++ q :: rest ∧ q ∉ inner ∧ Balanced rest := by
  by_cases closed : q ∈ cs
  · obtain ⟨inner, rest, rfl, inside⟩ := List.eq_append_cons_of_mem closed
    exact ⟨inner, rest, rfl, inside, (balanced_quoted quote inside rest).mp balanced⟩
  · rw [Balanced, List.foldl_cons, quoteAfter_of_isQuote quote, foldl_quoteAfter_open closed] at balanced
    cases balanced

/-- Only a quote is ever open. -/
theorem isQuote_of_mem_foldl {quote : Option Char} (start : ∀ q ∈ quote, Text.isQuote q = true) (cs : List Char) :
    ∀ q ∈ cs.foldl quoteAfter quote, Text.isQuote q = true := by
  induction cs generalizing quote with
  | nil => exact start
  | cons c cs ih =>
    refine ih fun q hq => ?_
    cases quote with
    | none =>
      cases here : Text.isQuote c with
      | true =>
        rw [quoteAfter_of_isQuote here] at hq
        exact Option.some.inj hq ▸ here
      | false =>
        rw [quoteAfter_of_not_isQuote here] at hq
        cases hq
    | some opened =>
      simp only [quoteAfter, Option.mem_def, Option.ite_none_left_eq_some, Option.some.injEq] at hq
      exact start q (by rw [hq.2]; rfl)

/-- What holds no quotes does not close any. -/
theorem Balanced.of_append {front back : List Char} (balanced : Balanced (front ++ back))
    (plain : ∀ c ∈ back, Text.isQuote c = false) : Balanced front := by
  rw [Balanced, List.foldl_append] at balanced
  cases opened : front.foldl quoteAfter none with
  | none => exact opened
  | some q =>
    have quote := isQuote_of_mem_foldl (by simp) front q opened
    have never : q ∉ back := fun h => by simp [plain q h] at quote
    rw [opened, foldl_quoteAfter_open never] at balanced
    cases balanced

/-! ## Pieces -/

theorem quotedLength_quoted {q : Char} (slash : q ≠ '\\') {inner : List Char} (inside : q ∉ inner)
    (escape : '\\' ∉ inner) (rest : List Char) : quotedLength q (inner ++ q :: rest) = (true, inner.length + 1) := by
  induction inner with
  | nil =>
    rw [List.nil_append, quotedLength, if_pos rfl]
    · rfl
    · exact slash
  | cons c inner ih =>
    have other : c ≠ q := fun h => inside (h ▸ List.mem_cons_self)
    have plain : c ≠ '\\' := fun h => escape (h ▸ List.mem_cons_self)
    rw [List.cons_append, quotedLength, if_neg other,
      ih (fun h => inside (List.mem_cons_of_mem c h)) fun h => escape (List.mem_cons_of_mem c h)]
    · rfl
    · exact plain

/-- Without backslashes, the first piece of a balanced text is no quoted text that was left open, and what is behind it
is balanced: a quoted piece ends with the quote that closes it, and any other piece holds no quotes. -/
theorem Balanced.drop_firstPiece {c : Char} {cs : List Char} {kind : PieceKind} {n : Nat}
    (balanced : Balanced (c :: cs)) (escape : '\\' ∉ c :: cs) (first : firstPiece c cs = (kind, n)) :
    Balanced (cs.drop n) ∧ (Text.isQuote c = true → kind ≠ .fault) := by
  cases quote : Text.isQuote c with
  | true =>
    obtain ⟨inner, rest, rfl, inside, behind⟩ := balanced.quotation quote
    have slash : c ≠ '\\' := fun h => escape (h ▸ List.mem_cons_self)
    have closed := quotedLength_quoted slash inside
      (fun h => escape (List.mem_cons_of_mem c (List.mem_append_left _ h))) rest
    obtain ⟨token, piece⟩ := firstPiece_of_closed quote closed
    rw [piece] at first
    cases first
    refine ⟨?_, by simp⟩
    rw [List.append_cons, List.drop_left' (by simp)]
    exact behind
  | false =>
    have plain : ∀ x ∈ c :: cs.take n, Text.isQuote x = false := by
      intro x hx
      rcases List.mem_cons.mp hx with rfl | hx
      · exact quote
      · exact not_isQuote_of_continues (continues_of_mem_firstPiece quote first hx)
    refine ⟨(balanced_append_of_plain plain).mp ?_, by simp⟩
    rwa [List.cons_append, List.take_append_drop]

theorem Balanced.not_isOpen {start : Nat} {cs : List Char} {p : Piece} (balanced : Balanced cs) (escape : '\\' ∉ cs)
    (hp : p ∈ scan start cs) : p.isOpen = false := by
  fun_induction scan start cs with
  | case1 => cases hp
  | case2 start c cs kind n first chars ih =>
    obtain ⟨behind, closed⟩ := balanced.drop_firstPiece escape first
    rcases List.mem_cons.mp hp with rfl | hp
    · cases quote : Text.isQuote c with
      | true => simp [Piece.isOpen, closed quote]
      | false => simp [Piece.isOpen, chars, quote]
    · exact ih behind (fun h => escape (List.mem_cons_of_mem c (List.mem_of_mem_drop h))) hp

/-- Without backslashes, the lexer leaves no quoted text of a balanced text open. -/
theorem Balanced.finished {cs : List Char} (balanced : Balanced cs) (escape : '\\' ∉ cs) : Finished cs :=
  fun _ hp => balanced.not_isOpen escape hp

/-! ## The end of a value -/

/-- Raw text ends at a semicolon or closing brace outside quotes, or before. -/
theorem rawLength_le_of_terminator {quote : Option Char} {body rest : List Char} {c : Char}
    (closed : body.foldl quoteAfter quote = none) (terminator : c = ';' ∨ c = '\x7d') :
    rawLength quote (body ++ c :: rest) ≤ body.length := by
  induction body generalizing quote with
  | nil =>
    obtain rfl : quote = none := closed
    rcases terminator with rfl | rfl <;> exact Nat.le_refl 0
  | cons d body ih =>
    have behind := ih closed
    rw [List.cons_append, rawLength]
    split
    · exact Nat.zero_le _
    · rw [List.length_cons]
      omega

/-- Raw text that ends within a text does not see what is behind that text. -/
theorem rawLength_append_of_lt {quote : Option Char} {cs : List Char} (ends : rawLength quote cs < cs.length)
    (rest : List Char) : rawLength quote (cs ++ rest) = rawLength quote cs := by
  induction cs generalizing quote with
  | nil => cases ends
  | cons c cs ih =>
    rw [rawLength] at ends ⊢
    rw [List.cons_append, rawLength]
    split
    · rfl
    · rename_i goesOn
      rw [if_neg goesOn, List.length_cons] at ends
      rw [ih (by omega)]

theorem rawPart_append_of_lt {cs : List Char} (ends : rawLength none cs < cs.length) (rest : List Char) :
    rawPart (cs ++ rest) = rawPart cs := by
  rw [rawPart, rawLength_append_of_lt ends, List.take_append_of_le_length (Nat.le_of_lt ends), rawPart]

end Stylebook
