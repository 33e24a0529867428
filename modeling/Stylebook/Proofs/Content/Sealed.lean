import Stylebook.Proofs.Content.Values

/-!
# Texts that nothing behind them can change

Two texts are written one behind the other. The scan for comments takes them apart again if it comes out of the first
one with no comment and no quote open (`stripFrom_append`). The lexer and the values need more: a token or a value of
the first text must not reach into the second. A text is `Sealed` if it rules that out: its quotes are closed, and apart
from blanks it ends with the end of a value. Its tokens are then followed by those of the other text
(`Sealed.tokensFrom_append`), and every value in it ends within it (`Sealed.valuesEnd`).
-/

set_option autoImplicit false

namespace Stylebook

open Lexer

/-! ## Where the scan for comments ends -/

/-- Whether a comment that was opened is closed. -/
def closesComment : List Char → Bool
  | '*' :: '/' :: _ => true
  | _ :: cs => closesComment cs
  | [] => false

/-- Whether the scan for comments, with `quote` open at its start, ends outside quotes and comments. -/
def endsOutside (quote : Option Char) : List Char → Bool
  | [] => quote.isNone
  | c :: cs =>
    if quote.isNone && c == '/' && cs.head? == some '*' then
      closesComment (cs.drop 1) && endsOutside quote (afterComment (cs.drop 1))
    else endsOutside (quoteAfter quote c) cs
  termination_by cs => cs.length
  decreasing_by
    · have h := afterComment_length (cs.drop 1)
      simp only [List.length_drop] at h
      simp only [List.length_cons]; omega
    · simp

theorem afterComment_append {cs : List Char} (closed : closesComment cs = true) (rest : List Char) :
    afterComment (cs ++ rest) = afterComment cs ++ rest := by
  fun_induction closesComment cs with
  | case1 => rfl
  | case2 c cs other ih =>
    have inside : cs ≠ [] := by
      rintro rfl
      cases closed
    obtain ⟨d, ds, rfl⟩ := List.exists_cons_of_ne_nil inside
    have here (more : List Char) : afterComment (c :: d :: more) = afterComment (d :: more) := by
      rw [afterComment]
      rintro _ rfl same
      exact other _ rfl (by rw [(List.cons.inj same).1])
    rw [List.cons_append, List.cons_append, here, here, ← List.cons_append, ih closed]
  | case3 => cases closed

/-- Comments are taken out of each text by itself, unless a slash at the end of the one opens a comment with a star at
the start of the other. -/
theorem stripFrom_append {quote : Option Char} {cs rest : List Char} (outside : endsOutside quote cs = true)
    (apart : (stripFrom quote cs).getLast? = some '/' → rest.head? ≠ some '*') :
    stripFrom quote (cs ++ rest) = stripFrom quote cs ++ stripFrom none rest := by
  have last {d : Char} {ds : List Char} (h : (d :: ds).getLast? = some '/' → rest.head? ≠ some '*') :
      ds.getLast? = some '/' → rest.head? ≠ some '*' := by
    intro same
    apply h
    rw [List.getLast?_cons, same]
    rfl
  fun_induction endsOutside quote cs with
  | case1 quote =>
    rw [Option.isNone_iff_eq_none.mp outside, stripFrom]
    rfl
  | case2 quote c cs opens ih =>
    obtain ⟨closed, outside⟩ := (Bool.and_eq_true _ _).mp outside
    have star : cs.head? = some '*' := by simpa using ((Bool.and_eq_true _ _).mp opens).2
    obtain ⟨cs, rfl⟩ := List.head?_eq_some_iff.mp star
    have opens' : (quote.isNone && c == '/' && ('*' :: (cs ++ rest)).head? == some '*') = true := opens
    rw [stripFrom, if_pos opens] at apart
    rw [List.cons_append, List.cons_append, stripFrom, if_pos opens', stripFrom, if_pos opens]
    simp only [List.drop_succ_cons, List.drop_zero, List.cons_append] at ih closed outside apart ⊢
    rw [afterComment_append closed, ih outside (last apart)]
  | case3 quote c cs goesOn ih =>
    have goesOn' : ¬(quote.isNone && c == '/' && (cs ++ rest).head? == some '*') = true := by
      cases cs with
      | nil =>
        -- nothing of the text follows, so the character is not the slash of a comment
        rw [stripFrom, if_neg goesOn, stripFrom, List.getLast?_singleton, Option.some.injEq] at apart
        intro opens
        simp only [List.nil_append, Bool.and_eq_true, beq_iff_eq] at opens
        exact apart opens.1.2 opens.2
      | cons d cs => exact goesOn
    rw [stripFrom, if_neg goesOn] at apart
    rw [List.cons_append, stripFrom, if_neg goesOn', stripFrom, if_neg goesOn, ih outside (last apart),
      List.cons_append]

/-- Where the scan ends outside quotes, the text without its comments closes its quotes. -/
theorem foldl_quoteAfter_stripFrom {quote : Option Char} {cs : List Char} (outside : endsOutside quote cs = true) :
    (stripFrom quote cs).foldl quoteAfter quote = none := by
  fun_induction endsOutside quote cs with
  | case1 quote =>
    rw [stripFrom]
    exact Option.isNone_iff_eq_none.mp outside
  | case2 quote c cs opens ih =>
    obtain ⟨closed, outside⟩ := (Bool.and_eq_true _ _).mp outside
    simp only [Bool.and_eq_true, Option.isNone_iff_eq_none] at opens
    obtain ⟨⟨rfl, _⟩, _⟩ := opens
    rw [stripFrom, if_pos (by simp_all), List.foldl_cons]
    exact ih outside
  | case3 quote c cs goesOn ih =>
    rw [stripFrom, if_neg goesOn, List.foldl_cons]
    exact ih outside

theorem mem_of_mem_afterComment {cs : List Char} {x : Char} (h : x ∈ afterComment cs) : x ∈ cs := by
  fun_induction afterComment cs with
  | case1 cs => exact List.mem_cons_of_mem _ (List.mem_cons_of_mem _ h)
  | case2 c cs _ ih => exact List.mem_cons_of_mem _ (ih h)
  | case3 => cases h

/-- Taking comments out brings in nothing but blanks. -/
theorem mem_of_mem_stripFrom {quote : Option Char} {cs : List Char} {x : Char} (h : x ∈ stripFrom quote cs) :
    x ∈ cs ∨ x = ' ' := by
  fun_induction stripFrom quote cs with
  | case1 => cases h
  | case2 quote c cs _ ih =>
    rcases List.mem_cons.mp h with rfl | h
    · exact .inr rfl
    · refine (ih h).imp_left fun inside => ?_
      exact List.mem_cons_of_mem _ (List.mem_of_mem_drop (mem_of_mem_afterComment inside))
  | case3 quote c cs _ ih =>
    rcases List.mem_cons.mp h with rfl | h
    · exact .inl List.mem_cons_self
    · exact (ih h).imp_left (List.mem_cons_of_mem _)

/-! ## Sealed texts -/

/-- The last character of a text that is not blank. -/
def lastInk? (cs : List Char) : Option Char :=
  cs.reverse.find? fun c => !Text.isBlank c

/-- A text whose quotes are closed and that ends, blanks apart, with the end of a value. -/
structure Sealed (cs : List Char) : Prop where
  balanced : Balanced cs
  escape : '\\' ∉ cs
  ended : ∀ c ∈ lastInk? cs, c = ';' ∨ c = '\x7d'

theorem lastInk?_append (a b : List Char) : lastInk? (a ++ b) = (lastInk? b).or (lastInk? a) := by
  rw [lastInk?, List.reverse_append, List.find?_append]
  rfl

theorem lastInk?_eq_none_iff {cs : List Char} : lastInk? cs = none ↔ ∀ c ∈ cs, Text.isBlank c = true := by
  simp [lastInk?]

theorem lastInk?_ink {body blanks : List Char} {c : Char} (ink : Text.isBlank c = false)
    (blank : ∀ x ∈ blanks, Text.isBlank x = true) : lastInk? (body ++ c :: blanks) = some c := by
  rw [List.append_cons, lastInk?_append, lastInk?_append, lastInk?_eq_none_iff.mpr blank]
  simp [lastInk?, ink]

theorem lastInk?_eq_some {cs : List Char} {c : Char} (h : lastInk? cs = some c) :
    ∃ body blanks, cs = body ++ c :: blanks ∧ ∀ x ∈ blanks, Text.isBlank x = true := by
  obtain ⟨_, front, back, whole, blank⟩ := List.find?_eq_some_iff_append.mp h
  refine ⟨back.reverse, front.reverse, ?_, by simpa using blank⟩
  rw [← List.reverse_inj, whole]
  simp

theorem isQuote_of_terminator {c : Char} (terminator : c = ';' ∨ c = '\x7d') : Text.isQuote c = false := by
  rcases terminator with rfl | rfl <;> rfl

theorem isQuote_of_isBlank {c : Char} (blank : Text.isBlank c = true) : Text.isQuote c = false := by
  have all : ∀ n ∈ Text.blankPoints, Text.isQuote (Char.ofNat n) = false := by decide +kernel
  simpa using all c.toNat (Text.mem_blankPoints blank)

/-- A sealed text is blank, or a body, the end of a value, and blanks. -/
theorem Sealed.split {cs : List Char} (sealed : Sealed cs) :
    (∀ c ∈ cs, Text.isBlank c = true) ∨ ∃ body c blanks, cs = body ++ c :: blanks ∧ (c = ';' ∨ c = '\x7d') ∧
      (∀ x ∈ blanks, Text.isBlank x = true) ∧ Balanced body ∧ Finished body := by
  cases last : lastInk? cs with
  | none => exact .inl (lastInk?_eq_none_iff.mp last)
  | some c =>
    obtain ⟨body, blanks, rfl, blank⟩ := lastInk?_eq_some last
    have terminator := sealed.ended c last
    have back : ∀ x ∈ c :: blanks, Text.isQuote x = false := by
      intro x hx
      rcases List.mem_cons.mp hx with rfl | hx
      · exact isQuote_of_terminator terminator
      · exact isQuote_of_isBlank (blank x hx)
    have balanced := sealed.balanced.of_append back
    exact .inr ⟨body, c, blanks, rfl, terminator, blank, balanced,
      balanced.finished fun h => sealed.escape (List.mem_append_left _ h)⟩

/-! ## Tokens of a sealed text -/

theorem recognize_of_isBlank {c : Char} (blank : Text.isBlank c = true) (cs : List Char) :
    recognize c cs = (none, 0) := by
  have all : ∀ n ∈ Text.blankPoints, Char.ofNat n ∉ ['"', '\'', '@', '#', '+', '-'] ∧
      isNameStart (Char.ofNat n) = false ∧ (Char.ofNat n).isDigit = false ∧ punctuation? (Char.ofNat n) = none := by
    decide +kernel
  obtain ⟨other, start, digit, mark⟩ := by simpa using all c.toNat (Text.mem_blankPoints blank)
  rw [recognize_eq]
  simp [other, start, digit, mark]

/-- Blanks are no tokens, whether the lexer skips them or not. -/
theorem tokensFrom_of_isBlank {blanks : List Char} (blank : ∀ c ∈ blanks, Text.isBlank c = true) (rest : List Char)
    (previous : Option Nat) (start : Nat) :
    tokensFrom previous start (blanks ++ rest) = tokensFrom previous (start + Text.byteSize blanks) rest := by
  induction blanks generalizing start with
  | nil => rfl
  | cons c blanks ih =>
    have behind := ih (fun x hx => blank x (List.mem_cons_of_mem c hx)) (start + c.utf8Size)
    rw [List.cons_append, Text.byteSize_cons, ← Nat.add_assoc, ← behind]
    cases skipped : isSkipped c with
    | true => exact tokensFrom_of_skipped skipped ..
    | false =>
      have fault := firstPiece_of_none skipped (recognize_of_isBlank (blank c List.mem_cons_self) (blanks ++ rest))
      unfold tokensFrom
      rw [scan, fault]
      simp [tokensOf]

/-- The tokens of a sealed text are followed by those of what is written behind it. -/
theorem Sealed.tokensFrom_append {cs : List Char} (sealed : Sealed cs) (rest : List Char) (previous : Option Nat)
    (start : Nat) : ∃ last, tokensFrom previous start (cs ++ rest) =
      tokensFrom previous start cs ++ tokensFrom last (start + Text.byteSize cs) rest := by
  rcases sealed.split with blank | ⟨body, c, blanks, rfl, terminator, blank, -, finished⟩
  · have nothing := tokensFrom_of_isBlank blank [] previous start
    rw [List.append_nil, tokensFrom_nil] at nothing
    exact ⟨previous, by rw [tokensFrom_of_isBlank blank, nothing, List.nil_append]⟩
  · obtain ⟨last, cut⟩ := Lexer.tokensFrom_append finished previous start
    obtain ⟨kind, mark, hash⟩ := punctuation?_of_terminator terminator
    have size : c.utf8Size = 1 := by rcases terminator with rfl | rfl <;> rfl
    have whole (more : List Char) : tokensFrom previous start (body ++ c :: (blanks ++ more)) =
        tokensFrom previous start body ++
          ⟨kind, [c], start + Text.byteSize body, last == some (start + Text.byteSize body)⟩ ::
          tokensFrom (some (start + Text.byteSize body + 1)) (start + Text.byteSize (body ++ c :: blanks)) more := by
      rw [cut _ (apart_of_terminator terminator _), tokensFrom_mark mark hash, tokensFrom_of_isBlank blank,
        Text.byteSize_append, Text.byteSize_cons, size, Nat.add_assoc, Nat.add_assoc, Nat.add_assoc]
    have here := whole []
    rw [List.append_nil, tokensFrom_nil] at here
    refine ⟨some (start + Text.byteSize body + 1), ?_⟩
    rw [List.append_assoc, List.cons_append, whole rest, here, List.append_assoc]
    rfl

/-! ## Values of a sealed text -/

/-- The raw text behind the colon ends before the source does, and some token of `ts` starts there or later. -/
def ValueEnds (source : List Char) (colon : Token) (ts : List Token) : Prop :=
  ∃ raw, Text.dropBytes? source colon.stop = some raw ∧ rawLength none raw < raw.length ∧
    ∃ t ∈ ts, colon.stop + Text.byteSize (rawPart raw) ≤ t.start

/-- The value behind every colon among the tokens ends before the source does. -/
def ValuesEnd (source : List Char) : List Token → Prop
  | [] => True
  | t :: ts => (t.kind = .colon → ValueEnds source t ts) ∧ ValuesEnd source ts

theorem ValuesEnd.of_suffix {source : List Char} {ts rest : List Token} (tail : rest <:+ ts)
    (ends : ValuesEnd source ts) : ValuesEnd source rest := by
  induction ts with
  | nil => exact List.suffix_nil.mp tail ▸ trivial
  | cons t ts ih =>
    rcases List.suffix_cons_iff.mp tail with rfl | behind
    · exact ends
    · exact ih behind ends.2

theorem Sealed.of_append {front cs : List Char} (whole : Sealed (front ++ cs)) (balanced : Balanced cs) :
    Sealed cs := by
  refine ⟨balanced, fun h => whole.escape (List.mem_append_right _ h), fun c last => whole.ended c ?_⟩
  rw [lastInk?_append, Option.mem_def.mp last]
  rfl

/-- The first piece can be taken away. -/
theorem Sealed.drop_firstPiece {c : Char} {cs : List Char} {kind : PieceKind} {n : Nat} (sealed : Sealed (c :: cs))
    (first : firstPiece c cs = (kind, n)) : Sealed (cs.drop n) := by
  obtain ⟨balanced, -⟩ := sealed.balanced.drop_firstPiece sealed.escape first
  have split : c :: cs = (c :: cs.take n) ++ cs.drop n := by simp
  exact (split ▸ sealed).of_append balanced

/-- The value behind a colon ends at the last character that is not blank, or before. -/
theorem Sealed.valueEnds {front cs : List Char} {colon : Token} (sealed : Sealed (':' :: cs))
    (stop : colon.stop = Text.byteSize (front ++ [':'])) (previous : Option Nat) :
    ValueEnds (front ++ ':' :: cs) colon (tokensFrom previous (Text.byteSize (front ++ [':'])) cs) := by
  have first : firstPiece ':' cs = (.token .colon, 0) := rfl
  have behind : Sealed cs := sealed.drop_firstPiece first
  have here : Text.dropBytes? (front ++ ':' :: cs) colon.stop = some cs := by
    rw [stop, List.append_cons, Text.dropBytes?_append]
  rcases behind.split with blank | ⟨body, c, blanks, rfl, terminator, -, balanced, finished⟩
  · -- then the colon itself would be the last character that is not blank
    have last : lastInk? ([] ++ ':' :: cs) = some ':' := lastInk?_ink rfl blank
    rcases sealed.ended ':' last with h | h <;> cases h
  · have short : rawLength none (body ++ c :: blanks) ≤ body.length := rawLength_le_of_terminator balanced terminator
    refine ⟨_, here, by rw [List.length_append, List.length_cons]; omega, ?_⟩
    obtain ⟨last, cut⟩ := Lexer.tokensFrom_append finished previous (Text.byteSize (front ++ [':']))
    obtain ⟨kind, mark, hash⟩ := punctuation?_of_terminator terminator
    rw [cut _ (apart_of_terminator terminator _), tokensFrom_mark mark hash]
    refine ⟨_, List.mem_append_right _ List.mem_cons_self, ?_⟩
    have part : rawPart (body ++ c :: blanks) <+: body := by
      rw [rawPart, List.take_append_of_le_length short]
      exact List.take_prefix _ _
    obtain ⟨more, whole⟩ := part
    have size := congrArg Text.byteSize whole
    rw [Text.byteSize_append] at size
    simp only [stop]
    omega

theorem eq_colon_of_firstPiece {c : Char} {cs : List Char} {n : Nat}
    (first : firstPiece c cs = (.token .colon, n)) : c = ':' ∧ n = 0 := by
  obtain ⟨mark, length⟩ := spells_of_recognize (recognize_of_firstPiece first)
  refine ⟨?_, length⟩
  unfold punctuation? at mark
  split at mark <;> first | rfl | cases mark

/-- **The values of a sealed text end within it.** The induction is on the pieces: what is behind a piece is sealed
again. -/
theorem Sealed.valuesEnd {cs : List Char} (sealed : Sealed cs) (front : List Char) (previous : Option Nat) :
    ValuesEnd (front ++ cs) (tokensFrom previous (Text.byteSize front) cs) := by
  generalize place : Text.byteSize front = start
  unfold tokensFrom
  fun_induction scan start cs generalizing front previous with
  | case1 => trivial
  | case2 start c cs kind n first chars ih =>
    subst place
    have behind (previous : Option Nat) :=
      ih (sealed.drop_firstPiece first) (front ++ chars) previous (Text.byteSize_append front chars)
    have split : front ++ chars ++ cs.drop n = front ++ c :: cs := by simp [chars]
    rw [split] at behind
    cases kind with
    | skipped => exact behind previous
    | fault => exact behind previous
    | token kind =>
      refine ⟨fun colon => ?_, behind _⟩
      obtain rfl : kind = .colon := colon
      obtain ⟨rfl, rfl⟩ := eq_colon_of_firstPiece first
      have here : Text.byteSize front + Text.byteSize chars = Text.byteSize (front ++ [':']) := by simp [chars]
      rw [here]
      show ValueEnds (front ++ ':' :: cs) ⟨.colon, chars, Text.byteSize front, _⟩
        (tokensFrom _ (Text.byteSize (front ++ [':'])) cs)
      refine sealed.valueEnds ?_ _
      exact here

end Stylebook
