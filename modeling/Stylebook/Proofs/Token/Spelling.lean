import Stylebook.Proofs.Token.Cutting

/-!
# How tokens are spelled

`Spells` says for each kind of token what it takes for the lexer to recognize it: the character it starts with and
how far it reaches. Everything else here follows from this one list. In particular, past its first character no
token but a quoted text holds anything that structures a sheet, and a name behind a number sign starts with fewer
than three hexadecimal digits (`Lexed`), for otherwise the lexer would have taken it for a colour.

In the other direction, names, marks and colours are cut off whole where what follows does not go on with them.
-/

set_option autoImplicit false

namespace Stylebook

namespace Lexer

/-- What it takes for a token to start with `c` and to reach `n` characters into the text `cs` behind it. -/
def Spells (c : Char) (cs : List Char) (n : Nat) : TokenKind → Prop
  | .doubleQuoted => c = '"' ∧ quotedLength '"' cs = (true, n)
  | .singleQuoted => c = '\'' ∧ quotedLength '\'' cs = (true, n)
  | .reference =>
    c = '@' ∧ n = nameLength cs ∧ n ≠ 0
      ∨ c = '-' ∧ ∃ name, cs = '-' :: name ∧ n = 1 + nameLength name ∧ nameLength name ≠ 0
  | .hash => c = '#' ∧ n = 0 ∧ run isHexDigit cs < 3
  | .hexColor => c = '#' ∧ n = min 8 (run isHexDigit cs) ∧ 3 ≤ n
  | .ident => isNameStart c = true ∧ n = run isNameChar cs
  | .number =>
    c.isDigit = true ∧ numeral? (c :: cs) = some (.number, n + 1)
      ∨ (c = '+' ∨ c = '-') ∧ numeral? cs = some (.number, n)
  | .dimension =>
    c.isDigit = true ∧ numeral? (c :: cs) = some (.dimension, n + 1)
      ∨ (c = '+' ∨ c = '-') ∧ numeral? cs = some (.dimension, n)
  | kind => punctuation? c = some kind ∧ n = 0

theorem numeral?_kind {cs : List Char} {kind : TokenKind} {n : Nat} (h : numeral? cs = some (kind, n)) :
    kind = .number ∨ kind = .dimension := by
  simp only [numeral?_eq, Option.ite_none_left_eq_some, Option.some.injEq] at h
  have kinds := congrArg Prod.fst h.2
  split at kinds
  · exact .inl kinds.symm
  · exact .inr kinds.symm

theorem numeral?_pos {cs : List Char} {kind : TokenKind} {n : Nat} (h : numeral? cs = some (kind, n)) : 0 < n := by
  have digits : run Char.isDigit cs ≠ 0 := by
    intro zero
    simp [numeral?_eq, zero] at h
  rw [numeral?_eq_some h]
  unfold figureLength
  omega

theorem referenceFrom_eq_some {mark n : Nat} {cs : List Char} {kind : TokenKind}
    (h : referenceFrom mark cs = (some kind, n)) :
    kind = .reference ∧ n = mark + nameLength cs ∧ nameLength cs ≠ 0 := by
  unfold referenceFrom at h
  split at h
  · cases h
  · rename_i name
    cases h
    exact ⟨rfl, rfl, name⟩

/-- What is recognized is spelled like its kind; one case for each way in which a token can start. -/
theorem spells_of_recognize {c : Char} {cs : List Char} {kind : TokenKind} {n : Nat}
    (h : recognize c cs = (some kind, n)) : Spells c cs n kind := by
  rw [recognize_eq] at h
  by_cases double : c = '"'
  · subst double
    simp only [if_true, quotedFrom, Prod.mk.injEq, Option.ite_none_right_eq_some, Option.some.injEq] at h
    obtain ⟨⟨closed, rfl⟩, rfl⟩ := h
    exact ⟨rfl, Prod.ext closed rfl⟩
  by_cases single : c = '\''
  · subst single
    simp only [show ¬('\'' = '"') by decide, if_true, if_false, quotedFrom, Prod.mk.injEq,
      Option.ite_none_right_eq_some, Option.some.injEq] at h
    obtain ⟨⟨closed, rfl⟩, rfl⟩ := h
    exact ⟨rfl, Prod.ext closed rfl⟩
  by_cases mark : c = '@'
  · subst mark
    simp only [show ¬('@' = '"') by decide, show ¬('@' = '\'') by decide, if_true, if_false] at h
    obtain ⟨rfl, name⟩ := referenceFrom_eq_some h
    exact .inl ⟨rfl, by omega, by omega⟩
  by_cases hash : c = '#'
  · subst hash
    simp only [show ¬('#' = '"') by decide, show ¬('#' = '\'') by decide, show ¬('#' = '@') by decide,
      if_true, if_false, hashed] at h
    split at h
    · cases h
      exact ⟨rfl, rfl, by omega⟩
    · cases h
      exact ⟨rfl, rfl, by omega⟩
  simp only [double, single, mark, hash, if_false] at h
  split at h
  · rename_i name
    cases h
    exact ⟨name, rfl⟩
  split at h
  · rename_i digit
    split at h
    · rename_i found
      cases h
      have positive := numeral?_pos found
      rcases numeral?_kind found with rfl | rfl
      · exact .inl ⟨digit, by rw [found]; congr; omega⟩
      · exact .inl ⟨digit, by rw [found]; congr; omega⟩
    · cases h
  split at h
  · rename_i sign
    unfold signed at h
    split at h
    · rename_i found
      cases h
      rcases numeral?_kind found with rfl | rfl
      · exact .inr ⟨sign, found⟩
      · exact .inr ⟨sign, found⟩
    split at h
    · obtain ⟨rfl, rfl, name⟩ := referenceFrom_eq_some h
      exact .inr ⟨rfl, _, rfl, rfl, name⟩
    · cases h
  · simp only [Prod.mk.injEq] at h
    obtain ⟨found, rfl⟩ := h
    unfold punctuation? at found
    split at found <;> cases found
    case h_9 => exact absurd rfl hash
    all_goals exact ⟨rfl, rfl⟩

theorem recognize_of_firstPiece {c : Char} {cs : List Char} {kind : TokenKind} {n : Nat}
    (first : firstPiece c cs = (.token kind, n)) : recognize c cs = (some kind, n) := by
  unfold firstPiece at first
  split at first
  · cases first
  · split at first <;> simp_all

/-! ## What a token is made of -/

theorem continues_of_mem_digits {cs : List Char} {x : Char} (h : x ∈ cs.take (run Char.isDigit cs)) :
    continues x = true :=
  continues_of_isNameChar (isNameChar_of_isDigit (mem_take_run h))

theorem continues_of_mem_name {cs : List Char} {x : Char} (h : x ∈ cs.take (nameLength cs)) :
    continues x = true := by
  cases cs with
  | nil => cases h
  | cons c cs =>
    by_cases start : isNameStart c = true
    · rw [nameLength, if_pos start, Nat.add_comm, List.take_succ_cons] at h
      rcases List.mem_cons.mp h with rfl | h
      · exact continues_of_isNameChar (isNameChar_of_isNameStart start)
      · exact continues_of_isNameChar (mem_take_run h)
    · rw [nameLength, if_neg start] at h
      cases h

theorem continues_of_mem_fraction {cs : List Char} {x : Char} (h : x ∈ cs.take (fractionLength cs)) :
    continues x = true := by
  unfold fractionLength at h
  split at h
  · split at h
    · cases h
    · rw [Nat.add_comm, List.take_succ_cons] at h
      rcases List.mem_cons.mp h with rfl | h
      · rfl
      · exact continues_of_mem_digits h
  · cases h

theorem continues_of_mem_unit {cs : List Char} {x : Char} (h : x ∈ cs.take (unitLength cs)) :
    continues x = true := by
  unfold unitLength at h
  split at h
  · rw [List.take_succ_cons, List.take_zero, List.mem_singleton] at h
    subst h
    rfl
  · exact continues_of_isNameChar (isNameChar_of_isAlpha (mem_take_run h))

theorem mem_take_add {cs : List Char} {m n : Nat} {x : Char} (h : x ∈ cs.take (m + n)) :
    x ∈ cs.take m ∨ x ∈ (cs.drop m).take n := by
  rw [List.take_add] at h
  exact List.mem_append.mp h

theorem continues_of_mem_numeral {cs : List Char} {kind : TokenKind} {n : Nat} {x : Char}
    (found : numeral? cs = some (kind, n)) (h : x ∈ cs.take n) : continues x = true := by
  rw [numeral?_eq_some found] at h
  rcases mem_take_add h with h | h
  · rcases mem_take_add h with h | h
    · exact continues_of_mem_digits h
    · exact continues_of_mem_fraction h
  · exact continues_of_mem_unit h

/-- What is no token is a quoted text or a single character. -/
theorem recognize_eq_none {c : Char} {cs : List Char} {n : Nat} (quote : Text.isQuote c = false)
    (h : recognize c cs = (none, n)) : n = 0 := by
  have double : c ≠ '"' := by
    rintro rfl
    cases quote
  have single : c ≠ '\'' := by
    rintro rfl
    cases quote
  have reference (mark : Nat) (name : List Char) (h : referenceFrom mark name = (none, n)) : n = 0 := by
    unfold referenceFrom at h
    split at h <;> cases h
    rfl
  simp only [recognize_eq, double, single, if_false] at h
  split at h
  · exact reference _ _ h
  split at h
  · unfold hashed at h
    dsimp only at h
    split at h <;> cases h
  split at h
  · cases h
  split at h
  · split at h <;> cases h
    rfl
  split at h
  · unfold signed at h
    split at h
    · cases h
    split at h
    · exact reference _ _ h
    · cases h
      rfl
  · exact (congrArg Prod.snd h).symm

/-- Behind its first character, a piece that is no quoted text holds only characters that tokens go on with. -/
theorem continues_of_mem_recognize {c : Char} {cs : List Char} {kind : Option TokenKind} {n : Nat} {x : Char}
    (quote : Text.isQuote c = false) (found : recognize c cs = (kind, n)) (h : x ∈ cs.take n) :
    continues x = true := by
  cases kind with
  | none =>
    rw [recognize_eq_none quote found] at h
    cases h
  | some kind =>
    have spells := spells_of_recognize found
    cases kind with
    | doubleQuoted => exact absurd quote (by simp [spells.1, Text.isQuote])
    | singleQuoted => exact absurd quote (by simp [spells.1, Text.isQuote])
    | reference =>
      rcases spells with ⟨_, length, _⟩ | ⟨_, name, rfl, length, _⟩
      · rw [length] at h
        exact continues_of_mem_name h
      · rw [length, Nat.add_comm, List.take_succ_cons] at h
        rcases List.mem_cons.mp h with rfl | h
        · rfl
        · exact continues_of_mem_name h
    | hexColor =>
      have within : x ∈ cs.take (run isHexDigit cs) :=
        List.take_subset_take_left _ (by omega) (spells.2.1 ▸ h)
      exact continues_of_isNameChar (isNameChar_of_isHexDigit (mem_take_run within))
    | ident =>
      rw [spells.2] at h
      exact continues_of_isNameChar (mem_take_run h)
    | number =>
      rcases spells with ⟨_, numeral⟩ | ⟨_, numeral⟩
      · exact continues_of_mem_numeral numeral (by simp [h])
      · exact continues_of_mem_numeral numeral h
    | dimension =>
      rcases spells with ⟨_, numeral⟩ | ⟨_, numeral⟩
      · exact continues_of_mem_numeral numeral (by simp [h])
      · exact continues_of_mem_numeral numeral h
    | hash =>
      rw [spells.2.1] at h
      cases h
    | _ =>
      rw [spells.2] at h
      cases h

theorem not_isQuote_of_continues {c : Char} (h : continues c = true) : Text.isQuote c = false := by
  cases quote : Text.isQuote c with
  | false => rfl
  | true =>
    simp only [Text.isQuote, Bool.or_eq_true, beq_iff_eq] at quote
    rcases quote with rfl | rfl <;> cases h

theorem continues_of_mem_firstPiece {c : Char} {cs : List Char} {kind : PieceKind} {n : Nat} {x : Char}
    (quote : Text.isQuote c = false) (first : firstPiece c cs = (kind, n)) (h : x ∈ cs.take n) :
    continues x = true := by
  unfold firstPiece at first
  split at first
  · cases first
    cases h
  · split at first
    · rename_i found
      cases first
      exact continues_of_mem_recognize quote found h
    · rename_i found
      cases first
      exact continues_of_mem_recognize quote found h

/-- A quoted text that is completed is one token. -/
theorem firstPiece_of_closed {q : Char} {cs : List Char} {n : Nat} (quote : Text.isQuote q = true)
    (closed : quotedLength q cs = (true, n)) : ∃ kind, firstPiece q cs = (.token kind, n) := by
  simp only [Text.isQuote, Bool.or_eq_true, beq_iff_eq] at quote
  rcases quote with rfl | rfl
  · have recognized : recognize '"' cs = (some .doubleQuoted, n) := by
      show quotedFrom '"' .doubleQuoted cs = _
      rw [quotedFrom, closed]
      rfl
    exact ⟨_, firstPiece_of_some rfl recognized⟩
  · have recognized : recognize '\'' cs = (some .singleQuoted, n) := by
      show quotedFrom '\'' .singleQuoted cs = _
      rw [quotedFrom, closed]
      rfl
    exact ⟨_, firstPiece_of_some rfl recognized⟩

theorem closed_of_firstPiece {q : Char} {cs : List Char} {kind : PieceKind} {n : Nat} (quote : Text.isQuote q = true)
    (first : firstPiece q cs = (kind, n)) (strict : kind ≠ .fault) : quotedLength q cs = (true, n) := by
  have read (token : TokenKind) (black : isSkipped q = false) (here : recognize q cs = quotedFrom q token cs) :
      quotedLength q cs = (true, n) := by
    obtain ⟨closed, m, found⟩ : ∃ closed m, quotedLength q cs = (closed, m) := ⟨_, _, rfl⟩
    rw [quotedFrom, found] at here
    cases closed with
    | true =>
      rw [firstPiece_of_some black here] at first
      rw [found, (Prod.mk.inj first).2]
    | false =>
      rw [firstPiece_of_none black here] at first
      exact absurd (Prod.mk.inj first).1.symm strict
  simp only [Text.isQuote, Bool.or_eq_true, beq_iff_eq] at quote
  rcases quote with rfl | rfl
  · exact read .doubleQuoted rfl rfl
  · exact read .singleQuoted rfl rfl

/-! ## Names, marks and colours are cut off whole -/

/-- Whether the text is a name. -/
def isName : List Char → Bool
  | [] => false
  | c :: cs => isNameStart c && cs.all isNameChar

theorem isNameChar_of_isName {name : List Char} (named : isName name = true) : ∀ c ∈ name, isNameChar c = true := by
  cases name with
  | nil => cases named
  | cons c cs =>
    obtain ⟨first, all⟩ := (Bool.and_eq_true _ _).mp named
    intro x hx
    rcases List.mem_cons.mp hx with rfl | hx
    · exact isNameChar_of_isNameStart first
    · exact List.all_eq_true.mp all x hx

theorem recognize_of_isNameStart {c : Char} (start : isNameStart c = true) (cs : List Char) :
    recognize c cs = (some .ident, run isNameChar cs) := by
  have other (d : Char) (h : isNameStart d = false) : c ≠ d := by
    rintro rfl
    simp [start] at h
  simp [recognize_eq, start, other '"' rfl, other '\'' rfl, other '@' rfl, other '#' rfl]

theorem isSkipped_of_isNameStart {c : Char} (start : isNameStart c = true) : isSkipped c = false := by
  cases skipped : isSkipped c with
  | false => rfl
  | true =>
    simp only [isSkipped, Bool.or_eq_true, beq_iff_eq] at skipped
    rcases skipped with (((rfl | rfl) | rfl) | rfl) | rfl <;> cases start

theorem tokensFrom_name {name rest : List Char} (named : isName name = true)
    (stop : ∀ c ∈ rest.head?, isNameChar c = false) (previous : Option Nat) (start : Nat) :
    tokensFrom previous start (name ++ rest) =
      ⟨.ident, name, start, previous == some start⟩ ::
        tokensFrom (some (start + Text.byteSize name)) (start + Text.byteSize name) rest := by
  cases name with
  | nil => cases named
  | cons c cs =>
    obtain ⟨first, all⟩ := (Bool.and_eq_true _ _).mp named
    have length : run isNameChar (cs ++ rest) = cs.length :=
      run_append_of_all (List.all_eq_true.mp all) stop
    have piece : firstPiece c (cs ++ rest) = (.token .ident, cs.length) :=
      firstPiece_of_some (isSkipped_of_isNameStart first) (by rw [recognize_of_isNameStart first, length])
    rw [List.cons_append, tokensFrom_of_token piece, List.take_left, List.drop_left]

theorem tokensFrom_mark {c : Char} {kind : TokenKind} (mark : punctuation? c = some kind) (hash : c ≠ '#')
    (rest : List Char) (previous : Option Nat) (start : Nat) :
    tokensFrom previous start (c :: rest) =
      ⟨kind, [c], start, previous == some start⟩ :: tokensFrom (some (start + 1)) (start + 1) rest := by
  have piece : firstPiece c rest = (.token kind, 0) ∧ c.utf8Size = 1 := by
    unfold punctuation? at mark
    split at mark <;> cases mark
    case h_9 => exact absurd rfl hash
    all_goals exact ⟨rfl, rfl⟩
  rw [tokensFrom_of_token piece.1]
  simp [piece.2]

theorem tokensFrom_blank (rest : List Char) (previous : Option Nat) (start : Nat) :
    tokensFrom previous start (' ' :: rest) = tokensFrom previous (start + 1) rest :=
  tokensFrom_of_skipped rfl rest previous start

theorem tokensFrom_hash {rest : List Char} (few : run isHexDigit rest < 3) (previous : Option Nat) (start : Nat) :
    tokensFrom previous start ('#' :: rest) =
      ⟨.hash, ['#'], start, previous == some start⟩ :: tokensFrom (some (start + 1)) (start + 1) rest := by
  have recognized : recognize '#' rest = (some .hash, 0) := by
    show hashed rest = _
    unfold hashed
    exact if_pos (by omega)
  rw [tokensFrom_of_token (firstPiece_of_some rfl recognized)]
  rfl

theorem tokensFrom_color {digits rest : List Char} (hex : ∀ d ∈ digits, isHexDigit d = true)
    (atLeast : 3 ≤ digits.length) (atMost : digits.length ≤ 8) (stop : ∀ c ∈ rest.head?, isHexDigit c = false)
    (previous : Option Nat) (start : Nat) :
    tokensFrom previous start ('#' :: (digits ++ rest)) =
      ⟨.hexColor, '#' :: digits, start, previous == some start⟩ ::
        tokensFrom (some (start + Text.byteSize ('#' :: digits))) (start + Text.byteSize ('#' :: digits)) rest := by
  have length : min 8 (run isHexDigit (digits ++ rest)) = digits.length := by
    rw [run_append_of_all hex stop]
    omega
  have recognized : recognize '#' (digits ++ rest) = (some .hexColor, digits.length) := by
    show hashed (digits ++ rest) = _
    unfold hashed
    rw [length]
    exact if_neg (by omega)
  rw [tokensFrom_of_token (firstPiece_of_some rfl recognized), List.take_left, List.drop_left]

theorem nameLength_append_of_isName {name rest : List Char} (named : isName name = true)
    (stop : ∀ c ∈ rest.head?, isNameChar c = false) : nameLength (name ++ rest) = name.length := by
  cases name with
  | nil => cases named
  | cons c cs =>
    obtain ⟨first, all⟩ := (Bool.and_eq_true _ _).mp named
    rw [List.cons_append, nameLength, if_pos first, run_append_of_all (List.all_eq_true.mp all) stop,
      List.length_cons, Nat.add_comm]

theorem tokensFrom_reference {name rest : List Char} (named : isName name = true)
    (stop : ∀ c ∈ rest.head?, isNameChar c = false) (previous : Option Nat) (start : Nat) :
    tokensFrom previous start ('@' :: (name ++ rest)) =
      ⟨.reference, '@' :: name, start, previous == some start⟩ ::
        tokensFrom (some (start + Text.byteSize ('@' :: name))) (start + Text.byteSize ('@' :: name)) rest := by
  have length := nameLength_append_of_isName named stop
  have recognized : recognize '@' (name ++ rest) = (some .reference, name.length) := by
    have positive : name.length ≠ 0 := by
      cases name with
      | nil => cases named
      | cons c cs => simp
    show referenceFrom 0 (name ++ rest) = _
    unfold referenceFrom
    rw [length]
    cases h : name.length with
    | zero => exact absurd h positive
    | succ n => simp
  rw [tokensFrom_of_token (firstPiece_of_some rfl recognized), List.take_left, List.drop_left]

end Lexer

/-! ## What tokens look like -/

open Lexer

/-- Names and colours have the characters that they should have. -/
def Token.Spelled (t : Token) : Prop :=
  match t.kind with
  | .ident => isName t.chars = true
  | .hexColor =>
    ∃ digits, t.chars = '#' :: digits ∧ 3 ≤ digits.length ∧ digits.length ≤ 8 ∧ ∀ d ∈ digits, isHexDigit d = true
  | _ => True

/-- Tokens as they come from the lexer: each is spelled like its kind, and what is joined to a number sign does not
start like a colour. -/
def Lexed : List Token → Prop
  | [] => True
  | t :: ts =>
    t.Spelled ∧ (t.kind = .hash → ∀ u ∈ ts.head?, u.joined = true → run isHexDigit u.chars < 3) ∧ Lexed ts

namespace Lexer

theorem spelled_of_spells {c : Char} {cs : List Char} {kind : TokenKind} {n : Nat} (spells : Spells c cs n kind)
    (start : Nat) (joined : Bool) : Token.Spelled ⟨kind, c :: cs.take n, start, joined⟩ := by
  cases kind with
  | ident =>
    obtain ⟨first, rfl⟩ := spells
    exact (Bool.and_eq_true _ _).mpr ⟨first, List.all_eq_true.mpr fun x hx => mem_take_run hx⟩
  | hexColor =>
    obtain ⟨rfl, length, atLeast⟩ := spells
    have within := run_le isHexDigit cs
    refine ⟨cs.take n, rfl, by simp; omega, by simp; omega, fun d hd => ?_⟩
    exact mem_take_run (List.take_subset_take_left _ (by omega) hd)
  | _ => trivial

/-- The mark of a token is put on by the end of the token in front of it. -/
theorem joined_of_append {previous : Option Nat} {ps : List Piece} {front rest : List Token} {t : Token}
    (split : tokensOf previous ps = front ++ t :: rest) : t.joined = (stopBehind previous front == some t.start) := by
  induction ps generalizing previous front with
  | nil => simp [tokensOf] at split
  | cons p ps ih =>
    cases kind : p.kind with
    | token k =>
      simp only [tokensOf, kind] at split
      cases front with
      | nil =>
        obtain ⟨rfl, -⟩ := List.cons.inj split
        rfl
      | cons u front =>
        obtain ⟨rfl, behind⟩ := List.cons.inj split
        rw [stopBehind_cons]
        exact ih behind
    | skipped => exact ih (by simpa [tokensOf, kind] using split)
    | fault => exact ih (by simpa [tokensOf, kind] using split)

theorem joined_of_head {previous : Option Nat} {ps : List Piece} {t : Token}
    (h : t ∈ (tokensOf previous ps).head?) : t.joined = (previous == some t.start) := by
  obtain ⟨rest, split⟩ := List.head?_eq_some_iff.mp h
  have split' : tokensOf previous ps = [] ++ t :: rest := split
  exact joined_of_append split'

/-- What is joined to the token in front of a text is what the text starts with. -/
theorem prefix_of_joined {start : Nat} {cs : List Char} {t : Token}
    (h : t ∈ (tokensFrom (some start) start cs).head?) (joined : t.joined = true) : t.chars <+: cs := by
  have here : t.start = start := by
    have mark := joined_of_head h
    rw [joined] at mark
    exact (Option.some.inj (beq_iff_eq.mp mark.symm)).symm
  cases cs with
  | nil => simp at h
  | cons c cs =>
    have split : scan start (c :: cs) = ⟨(firstPiece c cs).1, c :: cs.take (firstPiece c cs).2, start⟩ ::
        scan (start + Text.byteSize (c :: cs.take (firstPiece c cs).2)) (cs.drop (firstPiece c cs).2) := by
      rw [scan]
    have found := mem_tokensOf (List.mem_of_mem_head? h)
    rw [split] at found
    rcases List.mem_cons.mp found with same | later
    · have chars : t.chars = c :: cs.take (firstPiece c cs).2 := congrArg Piece.chars same
      rw [chars]
      exact List.prefix_cons_inj c |>.mpr (List.take_prefix _ _)
    · -- a piece in between keeps the token from starting here
      have behind := (start_of_mem_scan later).1
      have positive := Char.utf8Size_pos c
      simp only [Text.byteSize_cons] at behind
      omega

theorem run_mono {p : Char → Bool} {a b : List Char} (h : a <+: b) : run p a ≤ run p b := by
  obtain ⟨rest, rfl⟩ := h
  unfold run
  rw [List.takeWhile_append]
  split
  · rename_i all
    simp only [List.length_append]
    omega
  · exact Nat.le_refl _

theorem lexed_tokensFrom (previous : Option Nat) (start : Nat) (cs : List Char) :
    Lexed (tokensFrom previous start cs) := by
  unfold tokensFrom
  fun_induction scan start cs generalizing previous with
  | case1 => trivial
  | case2 start c cs kind n first chars ih =>
    cases kind with
    | token kind =>
      have found := recognize_of_firstPiece first
      have spells := spells_of_recognize found
      refine ⟨spelled_of_spells spells .., fun hash u hu joined => ?_, ih _⟩
      subst hash
      obtain ⟨rfl, rfl, few⟩ := spells
      exact Nat.lt_of_le_of_lt (run_mono (prefix_of_joined hu joined)) few
    | skipped => exact ih previous
    | fault => exact ih previous

end Lexer

end Stylebook
