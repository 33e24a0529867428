import Stylebook.Proofs.Content.Sealed

/-!
# A comment is a blank

Comments are taken out of a text before anything else looks at it, and each of them leaves one blank. So where the scan
for comments is outside quotes and comments, a comment can be written for a blank, or a blank for a comment, and nobody
sees the difference (`stripFrom_comment_behind`).

The blank is also what makes one scan enough. What stood on the two sides of a comment does not meet, so no slash comes
to stand before a star that it did not stand before, and the text that comes out has no comments left (`Commentless`).
The texts without comments are exactly those that the scan leaves as they are (`stripFrom_eq_self_iff`).
-/

set_option autoImplicit false

namespace Stylebook

/-! ## A comment where a blank could be -/

/-- A comment goes on to the first star and slash. -/
theorem afterComment_close {inner : List Char} (never : ¬['*', '/'] <:+: inner) (rest : List Char) :
    afterComment (inner ++ '*' :: '/' :: rest) = rest := by
  induction inner with
  | nil => rfl
  | cons c inner ih =>
    have behind := ih fun within => never (List.infix_cons within)
    have goesOn : ∀ cs, c = '*' → inner ++ '*' :: '/' :: rest = '/' :: cs → False := by
      rintro cs rfl here
      cases inner with
      | nil => simp at here
      | cons d inner =>
        obtain rfl : d = '/' := (List.cons.inj here).1
        exact never ⟨[], inner, rfl⟩
    rw [List.cons_append, afterComment]
    · exact behind
    · exact goesOn

theorem stripFrom_comment {inner : List Char} (never : ¬['*', '/'] <:+: inner) (rest : List Char) :
    stripFrom none ('/' :: '*' :: (inner ++ '*' :: '/' :: rest)) = ' ' :: stripFrom none rest := by
  rw [stripFrom, if_pos (by rfl), List.drop_succ_cons, List.drop_zero, afterComment_close never]

/-- Where the scan is outside quotes and comments, a comment is as good as a blank. -/
theorem stripFrom_comment_behind {quote : Option Char} {front inner : List Char}
    (outside : endsOutside quote front = true) (never : ¬['*', '/'] <:+: inner) (rest : List Char) :
    stripFrom quote (front ++ '/' :: '*' :: (inner ++ '*' :: '/' :: rest)) =
      stripFrom quote (front ++ ' ' :: rest) := by
  have plain : ∀ c ∈ [' '], Text.isQuote c = false ∧ c ≠ '/' := by simp [Text.isQuote]
  have blank : stripFrom none (' ' :: rest) = ' ' :: stripFrom none rest := stripFrom_append_of_plain plain rest
  rw [stripFrom_append outside fun _ => by simp, stripFrom_append outside fun _ => by simp, stripFrom_comment never,
    blank]

/-! ## Texts without comments -/

/-- Wherever a slash and a star stand in the text, a quote is open in front of them, if `quote` is the quote that is
open at the start. -/
def Commentless (quote : Option Char) (cs : List Char) : Prop :=
  ∀ front back, cs = front ++ '/' :: '*' :: back → front.foldl quoteAfter quote ≠ none

theorem commentless_nil (quote : Option Char) : Commentless quote [] := by
  intro front back h
  simp at h

/-- No comment opens with the first character, and none behind it. -/
theorem commentless_cons_iff {quote : Option Char} {c : Char} {cs : List Char} :
    Commentless quote (c :: cs) ↔
      ¬(quote = none ∧ c = '/' ∧ cs.head? = some '*') ∧ Commentless (quoteAfter quote c) cs := by
  constructor
  · intro without
    refine ⟨?_, ?_⟩
    · rintro ⟨rfl, rfl, star⟩
      obtain ⟨back, rfl⟩ := List.head?_eq_some_iff.mp star
      exact without [] back rfl rfl
    · rintro front back rfl
      exact without (c :: front) back rfl
  · rintro ⟨here, behind⟩ front back split
    cases front with
    | nil =>
      obtain ⟨rfl, rfl⟩ := List.cons.inj split
      intro outside
      exact here ⟨outside, rfl, rfl⟩
    | cons d front =>
      obtain ⟨rfl, rfl⟩ := List.cons.inj split
      exact behind front back rfl

/-- Taking comments out brings no star to the start. -/
theorem head_stripFrom {quote : Option Char} {cs : List Char} (star : (stripFrom quote cs).head? = some '*') :
    cs.head? = some '*' := by
  cases cs with
  | nil =>
    rw [stripFrom] at star
    exact star
  | cons c cs =>
    rw [stripFrom] at star
    split at star
    · cases star
    · exact star

theorem commentless_stripFrom (quote : Option Char) (cs : List Char) : Commentless quote (stripFrom quote cs) := by
  fun_induction stripFrom quote cs with
  | case1 quote => exact commentless_nil quote
  | case2 quote c cs opens ih =>
    -- the blank opens nothing, and the quote that is open behind it is the one before: none
    simp only [Bool.and_eq_true, Option.isNone_iff_eq_none] at opens
    obtain ⟨⟨rfl, _⟩, _⟩ := opens
    apply commentless_cons_iff.mpr
    exact ⟨by simp, ih⟩
  | case3 quote c cs goesOn ih =>
    apply commentless_cons_iff.mpr
    refine ⟨?_, ih⟩
    rintro ⟨rfl, rfl, star⟩
    apply goesOn
    rw [head_stripFrom star]
    rfl

/-- The scan leaves a text as it is exactly if no comment opens outside its quotes. -/
theorem stripFrom_eq_self_iff {quote : Option Char} {cs : List Char} :
    stripFrom quote cs = cs ↔ Commentless quote cs := by
  constructor
  · intro same
    rw [← same]
    exact commentless_stripFrom quote cs
  · intro without
    induction cs generalizing quote with
    | nil => rw [stripFrom]
    | cons c cs ih =>
      obtain ⟨here, behind⟩ := commentless_cons_iff.mp without
      have goesOn : ¬(quote.isNone && c == '/' && cs.head? == some '*') = true := by
        intro opens
        simp only [Bool.and_eq_true, Option.isNone_iff_eq_none, beq_iff_eq] at opens
        exact here ⟨opens.1.1, opens.1.2, opens.2⟩
      rw [stripFrom, if_neg goesOn, ih behind]

/-! ## Sheets -/

/-- **Comments are neutral**: where the scan is outside quotes and comments, a closed comment is read as a blank is. One
scan takes all comments out, so a second one changes nothing, and what it leaves opens no comment outside quotes. -/
theorem Content.comments_neutral :
    (∀ a c b : String, endsOutside none a.toList = true → ¬"*/".toList <:+: c.toList →
      stripComments (a ++ "/*" ++ c ++ "*/" ++ b).toList = stripComments (a ++ " " ++ b).toList ∧
      parse (a ++ "/*" ++ c ++ "*/" ++ b) = parse (a ++ " " ++ b)) ∧
    (∀ cs, stripComments (stripComments cs) = stripComments cs) ∧
    ∀ cs, Commentless none (stripComments cs) := by
  refine ⟨?_, ?_, ?_⟩
  · intro a c b outside never
    have same : stripComments (a ++ "/*" ++ c ++ "*/" ++ b).toList = stripComments (a ++ " " ++ b).toList := by
      simpa [stripComments] using stripFrom_comment_behind outside never b.toList
    refine ⟨same, ?_⟩
    unfold parse
    rw [same]
  · intro cs
    exact stripFrom_eq_self_iff.mpr (commentless_stripFrom none cs)
  · intro cs
    exact commentless_stripFrom none cs

/-- A slash in front of the comment, a slash and a quote at its start, a star at its end, and a slash behind it. -/
theorem Content.comments_neutral_slashes :
    endsOutside none "a /* ' */ '/*' /".toList = true ∧ ¬"*/".toList <:+: "/ \" *".toList ∧
      parse ("a /* ' */ '/*' /" ++ "/*" ++ "/ \" *" ++ "*/" ++ "/ \x7b p: v \x7d") =
        parse ("a /* ' */ '/*' /" ++ " " ++ "/ \x7b p: v \x7d") := by
  have outside : endsOutside none "a /* ' */ '/*' /".toList = true := by decide +kernel
  have never : ¬"*/".toList <:+: "/ \" *".toList := by decide
  exact ⟨outside, never, (comments_neutral.1 _ _ _ outside never).2⟩

end Stylebook
