import Stylebook.Proofs.Content.Balanced

/-!
# Text that keeps to itself

A value is raw text, and three scans run over it without knowing of each other: comments are taken out, tokens are
cut, and the end of the value is looked for. `Enclosed` says of a text that its quotes are closed and that nothing
outside them starts a comment or ends a value. It is a grammar of the text alone: plain characters, and quoted
stretches that do not hold their own quote.

The scans for comments and for the end of a value pass over an enclosed text (`Enclosed.stripFrom_append`,
`Enclosed.rawPart_append`). The lexer does if the text holds no backslash (`Enclosed.finished`): a backslash is the
one thing about which it thinks differently from the other two.
-/

set_option autoImplicit false

namespace Stylebook

open Lexer

/-- Text whose quotes are closed, with no semicolon, no closing brace and no start of a comment outside them. -/
inductive Enclosed : List Char → Prop
  | nil : Enclosed []
  | plain {c : Char} {cs : List Char} (quote : Text.isQuote c = false) (goesOn : c ≠ ';' ∧ c ≠ '\x7d')
      (comment : ¬(c = '/' ∧ cs.head? = some '*')) (behind : Enclosed cs) : Enclosed (c :: cs)
  | quoted {q : Char} {inner cs : List Char} (quote : Text.isQuote q = true) (inside : q ∉ inner)
      (behind : Enclosed cs) : Enclosed (q :: (inner ++ q :: cs))

/-- Enclosed texts can be put together, unless a slash and a star meet. -/
theorem Enclosed.append {cs rest : List Char} (front : Enclosed cs) (behind : Enclosed rest)
    (apart : rest.head? ≠ some '*') : Enclosed (cs ++ rest) := by
  induction front with
  | nil => exact behind
  | @plain c cs quote goesOn comment _ ih =>
    refine .plain quote goesOn ?_ ih
    rintro ⟨slash, star⟩
    cases cs with
    | nil => exact apart star
    | cons d cs => exact comment ⟨slash, star⟩
  | @quoted q inner cs quote inside _ ih =>
    rw [List.cons_append, List.append_assoc, List.cons_append]
    exact .quoted quote inside ih

/-! ## The end of a value -/

theorem rawLength_quoted {q : Char} {inner : List Char} (inside : q ∉ inner) (rest : List Char) :
    rawLength (some q) (inner ++ q :: rest) = inner.length + 1 + rawLength none rest := by
  induction inner with
  | nil => simp [rawLength, quoteAfter]
  | cons c inner ih =>
    have other : c ≠ q := fun h => inside (h ▸ List.mem_cons_self)
    have := ih fun h => inside (List.mem_cons_of_mem c h)
    simp only [List.cons_append, rawLength, Option.isNone_some, Bool.false_and, Bool.false_eq_true, if_false,
      quoteAfter, other, this, List.length_cons]
    omega

theorem rawLength_quote {q : Char} (quote : Text.isQuote q = true) (cs : List Char) :
    rawLength none (q :: cs) = 1 + rawLength (some q) cs := by
  have here : (q == ';' || q == '\x7d') = false := by
    simp only [Text.isQuote, Bool.or_eq_true, beq_iff_eq] at quote
    rcases quote with rfl | rfl <;> rfl
  simp only [rawLength, here, Bool.and_false, Bool.false_eq_true, if_false, quoteAfter_of_isQuote quote]

/-- The end of a value is not within an enclosed text. -/
theorem Enclosed.rawLength_append {cs : List Char} (enclosed : Enclosed cs) (rest : List Char) :
    rawLength none (cs ++ rest) = cs.length + rawLength none rest := by
  induction enclosed with
  | nil => simp
  | @plain c cs quote goesOn _ _ ih =>
    have here : (c == ';' || c == '\x7d') = false := by simp [goesOn]
    simp only [List.cons_append, rawLength, here, Bool.and_false, Bool.false_eq_true, if_false,
      quoteAfter_of_not_isQuote quote, ih, List.length_cons]
    omega
  | @quoted q inner cs quote inside _ ih =>
    simp only [List.cons_append, List.append_assoc, rawLength_quote quote, rawLength_quoted inside, ih,
      List.length_cons, List.length_append]
    omega

/-- An enclosed text is part of the value that it starts. -/
theorem Enclosed.rawPart_append {cs : List Char} (enclosed : Enclosed cs) (rest : List Char) :
    rawPart (cs ++ rest) = cs ++ rawPart rest := by
  rw [rawPart, enclosed.rawLength_append, List.take_length_add_append, rawPart]

theorem rawPart_terminator {c : Char} (terminator : c = ';' ∨ c = '\x7d') (rest : List Char) :
    rawPart (c :: rest) = [] := by
  rcases terminator with rfl | rfl <;> rfl

/-! ## Comments -/

theorem stripFrom_quoted {q : Char} {inner : List Char} (inside : q ∉ inner) (rest : List Char) :
    stripFrom (some q) (inner ++ q :: rest) = inner ++ q :: stripFrom none rest := by
  induction inner with
  | nil =>
    rw [List.nil_append, stripFrom]
    simp [quoteAfter]
  | cons c inner ih =>
    have other : c ≠ q := fun h => inside (h ▸ List.mem_cons_self)
    rw [List.cons_append, stripFrom]
    simp only [Option.isNone_some, Bool.false_and, Bool.false_eq_true, if_false, quoteAfter, other,
      ih fun h => inside (List.mem_cons_of_mem c h), List.cons_append]

theorem stripFrom_quote {q : Char} (quote : Text.isQuote q = true) (cs : List Char) :
    stripFrom none (q :: cs) = q :: stripFrom (some q) cs := by
  have here : (q == '/') = false := by
    simp only [Text.isQuote, Bool.or_eq_true, beq_iff_eq] at quote
    rcases quote with rfl | rfl <;> rfl
  rw [stripFrom]
  simp only [here, Bool.and_false, Bool.false_and, Bool.false_eq_true, if_false, quoteAfter_of_isQuote quote]

/-- No comment starts in an enclosed text. -/
theorem Enclosed.stripFrom_append {cs rest : List Char} (enclosed : Enclosed cs) (apart : rest.head? ≠ some '*') :
    stripFrom none (cs ++ rest) = cs ++ stripFrom none rest := by
  induction enclosed with
  | nil => rfl
  | @plain c cs quote _ comment _ ih =>
    have here : (c == '/' && (cs ++ rest).head? == some '*') = false := by
      cases cs with
      | nil => simp [apart]
      | cons d cs => simpa using comment
    rw [List.cons_append, stripFrom]
    simp only [Option.isNone_none, Bool.true_and, here, Bool.false_eq_true, if_false,
      quoteAfter_of_not_isQuote quote, ih, List.cons_append]
  | @quoted q inner cs quote inside _ ih =>
    simp only [List.cons_append, List.append_assoc, stripFrom_quote quote, stripFrom_quoted inside, ih]

/-- Text without quotes and slashes has no comments. -/
theorem stripFrom_append_of_plain {cs : List Char} (plain : ∀ c ∈ cs, Text.isQuote c = false ∧ c ≠ '/')
    (rest : List Char) : stripFrom none (cs ++ rest) = cs ++ stripFrom none rest := by
  induction cs with
  | nil => rfl
  | cons c cs ih =>
    obtain ⟨quote, slash⟩ := plain c List.mem_cons_self
    rw [List.cons_append, stripFrom]
    simp [slash, quoteAfter_of_not_isQuote quote, ih fun x hx => plain x (List.mem_cons_of_mem c hx)]

/-! ## Tokens -/

theorem Enclosed.balanced {cs : List Char} (enclosed : Enclosed cs) : Balanced cs := by
  induction enclosed with
  | nil => rfl
  | @plain c cs quote _ _ _ ih =>
    have here : ∀ x ∈ [c], Text.isQuote x = false := by simpa using quote
    exact (balanced_append_of_plain here).mpr ih
  | quoted quote inside _ ih => exact (balanced_quoted quote inside _).mpr ih

/-- Without backslashes, the lexer leaves no quoted text of an enclosed text open. -/
theorem Enclosed.finished {cs : List Char} (enclosed : Enclosed cs) (escape : '\\' ∉ cs) : Finished cs :=
  enclosed.balanced.finished escape

end Stylebook
