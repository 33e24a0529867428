import Mathlib.Data.List.TakeWhile
import Stylebook.Text.Quotes
import Stylebook.Token.Lexer

/-!
# Cutting a text that goes on

What the lexer makes of a text does not change when another text is written behind it, if two things hold: the
text behind does not start with a character that a token may go on with, and no quoted text was left open in
front of it. Then the pieces of both together are the pieces of the one followed by those of the other
(`scan_append`). Where the text in front starts only moves the offsets of its pieces (`scan_shift`).

Each length that the lexer computes gets two lemmas, one that it stays within the text and one that it does not
change; `recognize` and `firstPiece` only put them together.
-/

set_option autoImplicit false

namespace Stylebook.Lexer

/-- Characters that a token may go on with behind its first one; quoted texts are not meant. -/
def continues (c : Char) : Bool :=
  isNameChar c || c == '.' || c == '%'

/-- Nothing follows, or a character that no token goes on with. -/
def Apart (rest : List Char) : Prop :=
  ∀ c ∈ rest.head?, continues c = false

theorem isNameChar_of_isDigit {c : Char} (h : c.isDigit = true) : isNameChar c = true := by
  simp [isNameChar, Char.isAlphanum, h]

theorem isNameChar_of_isAlpha {c : Char} (h : c.isAlpha = true) : isNameChar c = true := by
  simp [isNameChar, Char.isAlphanum, h]

theorem isNameChar_of_isHexDigit {c : Char} (h : isHexDigit c = true) : isNameChar c = true := by
  have letter (h : c.isUpper = true ∨ c.isLower = true) : isNameChar c = true :=
    isNameChar_of_isAlpha ((Bool.or_eq_true _ _).mpr h)
  simp only [isHexDigit, Bool.or_eq_true, Bool.and_eq_true, decide_eq_true_eq] at h
  rcases h with (digit | ⟨first, last⟩) | ⟨first, last⟩
  · exact isNameChar_of_isDigit digit
  · have lower : 'a' ≤ c ∧ c ≤ 'z' := ⟨first, Char.le_trans last (by decide)⟩
    exact letter (.inr ((Bool.and_eq_true _ _).mpr ⟨decide_eq_true lower.1, decide_eq_true lower.2⟩))
  · have upper : 'A' ≤ c ∧ c ≤ 'Z' := ⟨first, Char.le_trans last (by decide)⟩
    exact letter (.inl (decide_eq_true upper))

theorem isNameChar_of_isNameStart {c : Char} (h : isNameStart c = true) : isNameChar c = true := by
  rcases (Bool.or_eq_true _ _).mp h with alpha | under
  · exact isNameChar_of_isAlpha alpha
  · simp [isNameChar, under]

theorem continues_of_isNameChar {c : Char} (h : isNameChar c = true) : continues c = true := by
  simp [continues, h]

/-- What stops a class of characters stops a smaller one. -/
theorem stop_of_imp {p q : Char → Bool} {rest : List Char} (stop : ∀ c ∈ rest.head?, q c = false)
    (within : ∀ c, p c = true → q c = true) : ∀ c ∈ rest.head?, p c = false := by
  intro c hc
  cases hp : p c with
  | false => rfl
  | true => exact absurd (within c hp) (by simp [stop c hc])

theorem Apart.not {rest : List Char} (apart : Apart rest) {p : Char → Bool}
    (within : ∀ c, p c = true → continues c = true) : ∀ c ∈ rest.head?, p c = false :=
  stop_of_imp apart within

/-! ## Lengths -/

theorem run_le (p : Char → Bool) (cs : List Char) : run p cs ≤ cs.length :=
  (List.takeWhile_prefix p).length_le

theorem run_eq_zero {p : Char → Bool} {rest : List Char} (stop : ∀ c ∈ rest.head?, p c = false) :
    run p rest = 0 := by
  cases rest with
  | nil => rfl
  | cons c cs => simp [run, stop c rfl]

theorem run_append {p : Char → Bool} {rest : List Char} (stop : ∀ c ∈ rest.head?, p c = false)
    (cs : List Char) : run p (cs ++ rest) = run p cs := by
  have none : rest.takeWhile p = [] := List.length_eq_zero_iff.mp (run_eq_zero stop)
  unfold run
  rw [List.takeWhile_append]
  split
  · rename_i all
    rw [none, List.append_nil, all]
  · rfl

/-- A run of a whole text goes up to what stops it. -/
theorem run_append_of_all {p : Char → Bool} {cs rest : List Char} (all : ∀ c ∈ cs, p c = true)
    (stop : ∀ c ∈ rest.head?, p c = false) : run p (cs ++ rest) = cs.length := by
  rw [run_append stop, run, List.takeWhile_eq_self_iff.mpr all]

theorem mem_take_run {p : Char → Bool} {cs : List Char} {x : Char} (h : x ∈ cs.take (run p cs)) : p x = true := by
  have same : cs.take (run p cs) = cs.takeWhile p :=
    List.prefix_iff_eq_take.mp (List.takeWhile_prefix p) |>.symm
  rw [same] at h
  exact List.mem_takeWhile_imp h

theorem nameLength_le (cs : List Char) : nameLength cs ≤ cs.length := by
  cases cs with
  | nil => exact Nat.le_refl _
  | cons c cs =>
    have := run_le isNameChar cs
    simp only [nameLength, List.length_cons]
    split <;> omega

theorem nameLength_append {rest : List Char} (apart : Apart rest) (cs : List Char) :
    nameLength (cs ++ rest) = nameLength cs := by
  have start := apart.not fun c h => continues_of_isNameChar (isNameChar_of_isNameStart h)
  cases cs with
  | nil =>
    cases rest with
    | nil => rfl
    | cons c cs => simp [nameLength, start c rfl]
  | cons c cs =>
    simp only [List.cons_append, nameLength]
    rw [run_append (apart.not fun _ => continues_of_isNameChar)]

theorem fractionLength_le (cs : List Char) : fractionLength cs ≤ cs.length := by
  unfold fractionLength
  split
  · rename_i cs
    have := run_le Char.isDigit cs
    simp only [List.length_cons]
    split <;> omega
  · exact Nat.zero_le _

theorem fractionLength_append {rest : List Char} (apart : Apart rest) (cs : List Char) :
    fractionLength (cs ++ rest) = fractionLength cs := by
  cases cs with
  | nil =>
    cases rest with
    | nil => rfl
    | cons c cs =>
      have point : c ≠ '.' := by
        rintro rfl
        exact absurd (apart '.' rfl) (by decide)
      simp [fractionLength, point]
  | cons c cs =>
    by_cases point : c = '.'
    · subst point
      simp only [List.cons_append, fractionLength]
      rw [run_append (apart.not fun _ h => continues_of_isNameChar (isNameChar_of_isDigit h))]
    · simp [fractionLength, point]

theorem unitLength_le (cs : List Char) : unitLength cs ≤ cs.length := by
  unfold unitLength
  split
  · simp
  · exact run_le _ _

theorem unitLength_append {rest : List Char} (apart : Apart rest) (cs : List Char) :
    unitLength (cs ++ rest) = unitLength cs := by
  have alpha := apart.not fun _ h => continues_of_isNameChar (isNameChar_of_isAlpha h)
  cases cs with
  | nil =>
    cases rest with
    | nil => rfl
    | cons c cs =>
      have percent : c ≠ '%' := by
        rintro rfl
        exact absurd (apart '%' rfl) (by decide)
      simp [unitLength, percent, run, alpha c rfl]
  | cons c cs =>
    by_cases percent : c = '%'
    · subst percent
      rfl
    · have whole : unitLength (c :: (cs ++ rest)) = run Char.isAlpha (c :: (cs ++ rest)) := by
        simp [unitLength, percent]
      have part : unitLength (c :: cs) = run Char.isAlpha (c :: cs) := by simp [unitLength, percent]
      rw [List.cons_append, whole, part]
      exact run_append alpha (c :: cs)

/-- The length of an unsigned number without its unit. -/
def figureLength (cs : List Char) : Nat :=
  run Char.isDigit cs + fractionLength (cs.drop (run Char.isDigit cs))

theorem figureLength_le (cs : List Char) : figureLength cs ≤ cs.length := by
  have whole := run_le Char.isDigit cs
  have fraction := fractionLength_le (cs.drop (run Char.isDigit cs))
  rw [List.length_drop] at fraction
  unfold figureLength
  omega

theorem figureLength_append {rest : List Char} (apart : Apart rest) (cs : List Char) :
    figureLength (cs ++ rest) = figureLength cs := by
  unfold figureLength
  rw [run_append (apart.not fun _ h => continues_of_isNameChar (isNameChar_of_isDigit h)),
    List.drop_append_of_le_length (run_le _ _), fractionLength_append apart]

theorem numeral?_eq (cs : List Char) :
    numeral? cs =
      if run Char.isDigit cs = 0 then none
      else some
        (if unitLength (cs.drop (figureLength cs)) = 0 then (.number, figureLength cs)
        else (.dimension, figureLength cs + unitLength (cs.drop (figureLength cs)))) := rfl

theorem numeral?_eq_some {cs : List Char} {kind : TokenKind} {n : Nat} (h : numeral? cs = some (kind, n)) :
    n = figureLength cs + unitLength (cs.drop (figureLength cs)) := by
  simp only [numeral?_eq, Option.ite_none_left_eq_some, Option.some.injEq] at h
  have length := congrArg Prod.snd h.2
  split at length <;> simp_all

theorem numeral?_le {cs : List Char} {kind : TokenKind} {n : Nat} (h : numeral? cs = some (kind, n)) :
    n ≤ cs.length := by
  have figure := figureLength_le cs
  have unit := unitLength_le (cs.drop (figureLength cs))
  rw [List.length_drop] at unit
  rw [numeral?_eq_some h]
  omega

theorem numeral?_append {rest : List Char} (apart : Apart rest) (cs : List Char) :
    numeral? (cs ++ rest) = numeral? cs := by
  have digits := run_append (apart.not fun _ h => continues_of_isNameChar (isNameChar_of_isDigit h)) cs
  have unit : unitLength ((cs ++ rest).drop (figureLength cs)) = unitLength (cs.drop (figureLength cs)) := by
    rw [List.drop_append_of_le_length (figureLength_le cs), unitLength_append apart]
  simp only [numeral?_eq, digits, figureLength_append apart, unit]

theorem quotedLength_le (q : Char) (cs : List Char) : (quotedLength q cs).2 ≤ cs.length := by
  fun_induction quotedLength q cs with
  | case1 => exact Nat.le_refl _
  | case2 => exact Nat.le_refl _
  | case3 => simp
  | case4 _ _ _ _ _ h ih =>
    simp only [h] at ih
    simp only [List.length_cons]
    omega
  | case5 => simp
  | case6 _ _ _ _ _ _ h ih =>
    simp only [h] at ih
    simp only [List.length_cons]
    omega

/-- A quoted text that is completed does not see what follows. -/
theorem quotedLength_append {q : Char} {cs : List Char} (closed : (quotedLength q cs).1 = true)
    (rest : List Char) : quotedLength q (cs ++ rest) = quotedLength q cs := by
  fun_induction quotedLength q cs with
  | case1 => cases closed
  | case2 => cases closed
  | case3 => cases closed
  | case4 c cs line _ _ h ih =>
    rw [h] at ih
    simp only [List.cons_append, quotedLength, line, if_false]
    rw [ih closed]
  | case5 cs slash =>
    rw [List.cons_append, quotedLength, if_pos rfl]
    exact slash
  | case6 c cs slash quote _ _ h ih =>
    rw [h] at ih
    rw [List.cons_append, quotedLength, if_neg quote, ih closed]
    exact slash

/-- A quoted text stays open without its quote. -/
theorem quotedLength_of_not_mem {q : Char} {cs : List Char} (none : q ∉ cs) : (quotedLength q cs).1 = false := by
  fun_induction quotedLength q cs with
  | case1 => rfl
  | case2 => rfl
  | case3 => rfl
  | case4 _ _ _ _ _ h ih =>
    rw [h] at ih
    exact ih (by simp_all)
  | case5 => simp at none
  | case6 _ _ _ _ _ _ h ih =>
    rw [h] at ih
    exact ih (by simp_all)

/-- What holds no quote does not complete a quoted text that was left open. -/
theorem quotedLength_append_open {q : Char} {cs rest : List Char} (none : q ∉ rest)
    (unfinished : (quotedLength q cs).1 = false) : (quotedLength q (cs ++ rest)).1 = false := by
  fun_induction quotedLength q cs with
  | case1 => exact quotedLength_of_not_mem none
  | case2 =>
    cases rest with
    | nil => rfl
    | cons c rest =>
      by_cases line : c = '\n'
      · simp [quotedLength, line]
      · simp only [List.cons_append, List.nil_append, quotedLength, line, if_false]
        exact quotedLength_of_not_mem fun h => none (List.mem_cons_of_mem _ h)
  | case3 => simp [quotedLength]
  | case4 c cs line _ _ h ih =>
    rw [h] at ih
    simp only [List.cons_append, quotedLength, line, if_false]
    exact ih unfinished
  | case5 => cases unfinished
  | case6 c cs slash quote _ _ h ih =>
    rw [h] at ih
    rw [List.cons_append, quotedLength, if_neg quote]
    · exact ih unfinished
    · exact slash

/-! ## The first piece -/

theorem referenceFrom_le (mark : Nat) (cs : List Char) : (referenceFrom mark cs).2 ≤ mark + cs.length := by
  have := nameLength_le cs
  unfold referenceFrom
  split <;> simp_all

theorem referenceFrom_append {rest : List Char} (apart : Apart rest) (mark : Nat) (cs : List Char) :
    referenceFrom mark (cs ++ rest) = referenceFrom mark cs := by
  unfold referenceFrom
  rw [nameLength_append apart]

/-- What is recognized behind a number sign. -/
def hashed (cs : List Char) : Option TokenKind × Nat :=
  let digits := min 8 (run isHexDigit cs)
  if digits < 3 then (some .hash, 0) else (some .hexColor, digits)

/-- What is recognized behind the sign `c`. -/
def signed (c : Char) (cs : List Char) : Option TokenKind × Nat :=
  match numeral? cs with
  | some (kind, n) => (some kind, n)
  | none =>
    match c, cs with
    | '-', '-' :: name => referenceFrom 1 name
    | _, _ => (none, 0)

theorem recognize_eq (c : Char) (cs : List Char) :
    recognize c cs =
      if c = '"' then quotedFrom '"' .doubleQuoted cs
      else if c = '\'' then quotedFrom '\'' .singleQuoted cs
      else if c = '@' then referenceFrom 0 cs
      else if c = '#' then hashed cs
      else if isNameStart c then (some .ident, run isNameChar cs)
      else if c.isDigit then
        match numeral? (c :: cs) with
        | some (kind, n) => (some kind, n - 1)
        | none => (none, 0)
      else if c = '+' ∨ c = '-' then signed c cs
      else (punctuation? c, 0) := rfl

theorem hashed_le (cs : List Char) : (hashed cs).2 ≤ cs.length := by
  have := run_le isHexDigit cs
  unfold hashed
  dsimp only
  split <;> simp only <;> omega

theorem hashed_append {rest : List Char} (apart : Apart rest) (cs : List Char) :
    hashed (cs ++ rest) = hashed cs := by
  unfold hashed
  rw [run_append (apart.not fun _ h => continues_of_isNameChar (isNameChar_of_isHexDigit h))]

theorem signed_le (c : Char) (cs : List Char) : (signed c cs).2 ≤ cs.length := by
  unfold signed
  split
  · rename_i h
    exact numeral?_le h
  split
  · simpa [Nat.add_comm] using referenceFrom_le 1 _
  · exact Nat.zero_le _

theorem signed_append {rest : List Char} (apart : Apart rest) (c : Char) (cs : List Char) :
    signed c (cs ++ rest) = signed c cs := by
  unfold signed
  rw [numeral?_append apart]
  cases cs with
  | nil =>
    cases rest with
    | nil => rfl
    | cons d rest =>
      have dash : d ≠ '-' := by
        rintro rfl
        exact absurd (apart '-' rfl) (by decide)
      simp [dash]
  | cons d cs =>
    by_cases marks : c = '-' ∧ d = '-'
    · obtain ⟨rfl, rfl⟩ := marks
      simp only [List.cons_append, referenceFrom_append apart]
    · have other (l : List Char) : (match c, d :: l with
          | '-', '-' :: name => referenceFrom 1 name
          | _, _ => ((none, 0) : Option TokenKind × Nat)) = (none, 0) := by
        split
        · rename_i hd
          exact absurd ⟨rfl, (List.cons.inj hd).1⟩ marks
        · rfl
      rw [List.cons_append, other, other]

theorem recognize_le (c : Char) (cs : List Char) : (recognize c cs).2 ≤ cs.length := by
  rw [recognize_eq]
  split
  · exact quotedLength_le _ _
  split
  · exact quotedLength_le _ _
  split
  · simpa using referenceFrom_le 0 cs
  split
  · exact hashed_le cs
  split
  · exact run_le _ _
  split
  · split
    · rename_i h
      have := numeral?_le h
      simp only [List.length_cons] at this
      omega
    · exact Nat.zero_le _
  split
  · exact signed_le c cs
  · exact Nat.zero_le _

theorem quotedFrom_append {q : Char} {kind : TokenKind} {cs : List Char}
    (closed : (quotedFrom q kind cs).1.isSome = true) (rest : List Char) :
    quotedFrom q kind (cs ++ rest) = quotedFrom q kind cs := by
  have complete : (quotedLength q cs).1 = true := by
    unfold quotedFrom at closed
    cases h : (quotedLength q cs).1 <;> simp_all
  unfold quotedFrom
  rw [quotedLength_append complete]

/-- What is recognized stays the same when a text goes on, unless it is a quoted text that was left open. -/
theorem recognize_append {c : Char} {cs rest : List Char} (apart : Apart rest)
    (finished : Text.isQuote c = true → (recognize c cs).1.isSome = true) :
    recognize c (cs ++ rest) = recognize c cs := by
  rw [recognize_eq] at finished ⊢
  rw [recognize_eq]
  by_cases double : c = '"'
  · subst double
    exact quotedFrom_append (finished rfl) rest
  by_cases single : c = '\''
  · subst single
    exact quotedFrom_append (finished rfl) rest
  simp only [double, single, if_false]
  -- all other tokens end before a character that none of them goes on with
  rw [referenceFrom_append apart, hashed_append apart, run_append (apart.not fun _ => continues_of_isNameChar),
    ← List.cons_append, numeral?_append apart, signed_append apart]

theorem firstPiece_of_skipped {c : Char} (skipped : isSkipped c = true) (cs : List Char) :
    firstPiece c cs = (.skipped, 0) := if_pos skipped

theorem firstPiece_of_some {c : Char} {cs : List Char} {kind : TokenKind} {n : Nat} (black : isSkipped c = false)
    (h : recognize c cs = (some kind, n)) : firstPiece c cs = (.token kind, n) := by
  simp [firstPiece, black, h]

theorem firstPiece_of_none {c : Char} {cs : List Char} {n : Nat} (black : isSkipped c = false)
    (h : recognize c cs = (none, n)) : firstPiece c cs = (.fault, n) := by
  simp [firstPiece, black, h]

theorem firstPiece_le (c : Char) (cs : List Char) : (firstPiece c cs).2 ≤ cs.length := by
  have := recognize_le c cs
  unfold firstPiece
  split
  · exact Nat.zero_le _
  · split <;> simp_all

/-- Whether the piece is a quoted text that was left open. -/
def Piece.isOpen (p : Piece) : Bool :=
  p.kind == .fault && p.chars.head?.any Text.isQuote

theorem firstPiece_append {c : Char} {cs rest : List Char} (apart : Apart rest)
    (finished : Text.isQuote c = true → (firstPiece c cs).1 ≠ .fault) :
    firstPiece c (cs ++ rest) = firstPiece c cs := by
  cases skipped : isSkipped c with
  | true => rw [firstPiece_of_skipped skipped, firstPiece_of_skipped skipped]
  | false =>
    have same : recognize c (cs ++ rest) = recognize c cs := by
      refine recognize_append apart fun quote => ?_
      cases h : recognize c cs with
      | mk kind n =>
        cases kind with
        | none => exact absurd (by rw [firstPiece_of_none skipped h]) (finished quote)
        | some kind => rfl
    simp only [firstPiece, skipped, same]

/-! ## Pieces -/

/-- The text in front is finished, so what follows starts a piece of its own. -/
theorem scan_append {rest : List Char} (apart : Apart rest) {start : Nat} {cs : List Char}
    (finished : ∀ p ∈ scan start cs, p.isOpen = false) :
    scan start (cs ++ rest) = scan start cs ++ scan (start + Text.byteSize cs) rest := by
  fun_induction scan start cs with
  | case1 start => rfl
  | case2 start c cs kind n first chars ih =>
    have length : n ≤ cs.length := by simpa [first] using firstPiece_le c cs
    have same : firstPiece c (cs ++ rest) = (kind, n) := by
      rw [← first]
      refine firstPiece_append apart fun quote fault => ?_
      rw [first] at fault
      have here := finished ⟨kind, chars, start⟩ List.mem_cons_self
      simp [Piece.isOpen, show kind = .fault from fault, chars, quote] at here
    have size : start + Text.byteSize (c :: cs)
        = start + Text.byteSize chars + Text.byteSize (cs.drop n) := by
      have whole := congrArg Text.byteSize (List.take_append_drop n cs)
      rw [Text.byteSize_append] at whole
      simp only [chars, Text.byteSize_cons]
      omega
    rw [List.cons_append, scan, same, size]
    simp only [List.take_append_of_le_length length, List.drop_append_of_le_length length, List.cons_append]
    rw [← ih fun p hp => finished p (List.mem_cons_of_mem _ hp)]

def Piece.shift (d : Nat) (p : Piece) : Piece :=
  { p with start := d + p.start }

theorem scan_shift (d start : Nat) (cs : List Char) :
    scan (d + start) cs = (scan start cs).map (Piece.shift d) := by
  fun_induction scan start cs with
  | case1 => simp [scan]
  | case2 start c cs kind n first chars ih =>
    rw [scan, first]
    simp only [List.map_cons]
    rw [← ih, Nat.add_assoc]
    rfl

/-- The pieces of a text lie between its start and its end. -/
theorem start_of_mem_scan {start : Nat} {cs : List Char} {p : Piece} (h : p ∈ scan start cs) :
    start ≤ p.start ∧ p.start < start + Text.byteSize cs := by
  fun_induction scan start cs with
  | case1 => cases h
  | case2 start c cs kind n first chars ih =>
    have whole := congrArg Text.byteSize (List.take_append_drop n cs)
    rw [Text.byteSize_append] at whole
    have positive := Char.utf8Size_pos c
    simp only [chars, Text.byteSize_cons] at ih ⊢
    rcases List.mem_cons.mp h with rfl | h
    · dsimp only
      omega
    · have := ih h
      omega

/-- No quoted text is left open. -/
def Finished (cs : List Char) : Prop :=
  ∀ p ∈ scan 0 cs, p.isOpen = false

theorem Finished.at {cs : List Char} (h : Finished cs) (start : Nat) :
    ∀ p ∈ scan start cs, p.isOpen = false := by
  intro p hp
  rw [← Nat.add_zero start, scan_shift] at hp
  obtain ⟨q, hq, rfl⟩ := List.mem_map.mp hp
  exact h q hq

theorem Finished.append {cs rest : List Char} (front : Finished cs) (behind : Finished rest) (apart : Apart rest) :
    Finished (cs ++ rest) := by
  intro p hp
  rw [scan_append apart front] at hp
  rcases List.mem_append.mp hp with hp | hp
  · exact front p hp
  · exact behind.at _ p hp

theorem Finished.skipped {c : Char} {cs : List Char} (behind : Finished cs) (skipped : isSkipped c = true) :
    Finished (c :: cs) := by
  intro p hp
  rw [scan, firstPiece_of_skipped skipped] at hp
  rcases List.mem_cons.mp hp with rfl | hp
  · rfl
  · exact behind.at _ p hp

theorem finished_nil : Finished [] := by
  intro p hp
  simp [scan] at hp

/-- The text is made of tokens and blanks. -/
def Sound (cs : List Char) : Prop :=
  ∀ p ∈ scan 0 cs, p.kind ≠ .fault

theorem Sound.finished {cs : List Char} (sound : Sound cs) : Finished cs := by
  intro p hp
  simp [Piece.isOpen, sound p hp]

/-! ## Tokens -/

/-- The tokens of a text that starts at the offset `start`; `previous` is the end of the token before it. -/
def tokensFrom (previous : Option Nat) (start : Nat) (cs : List Char) : List Token :=
  tokensOf previous (scan start cs)

theorem tokens_eq (cs : List Char) : tokens cs = tokensFrom none 0 cs := rfl

@[simp] theorem tokensFrom_nil (previous : Option Nat) (start : Nat) : tokensFrom previous start [] = [] := by
  simp [tokensFrom, scan, tokensOf]

theorem tokensFrom_of_token {c : Char} {cs : List Char} {kind : TokenKind} {n : Nat}
    (first : firstPiece c cs = (.token kind, n)) (previous : Option Nat) (start : Nat) :
    tokensFrom previous start (c :: cs) =
      ⟨kind, c :: cs.take n, start, previous == some start⟩ ::
        tokensFrom (some (start + Text.byteSize (c :: cs.take n))) (start + Text.byteSize (c :: cs.take n))
          (cs.drop n) := by
  unfold tokensFrom
  rw [scan, first]
  rfl

theorem tokensFrom_of_skipped {c : Char} (skipped : isSkipped c = true) (cs : List Char)
    (previous : Option Nat) (start : Nat) :
    tokensFrom previous start (c :: cs) = tokensFrom previous (start + c.utf8Size) cs := by
  unfold tokensFrom
  rw [scan, firstPiece_of_skipped skipped]
  simp [tokensOf]

theorem tokensFrom_blanks {front : List Char} (before : ∀ c ∈ front, isSkipped c = true) (cs : List Char)
    (previous : Option Nat) (start : Nat) :
    tokensFrom previous start (front ++ cs) = tokensFrom previous (start + Text.byteSize front) cs := by
  induction front generalizing start with
  | nil => rfl
  | cons c front ih =>
    rw [List.cons_append, tokensFrom_of_skipped (before c List.mem_cons_self),
      ih fun x hx => before x (List.mem_cons_of_mem c hx), Text.byteSize_cons, Nat.add_assoc]

/-- The end of the last of the tokens; `previous` is the end of the token in front of them. -/
def stopBehind (previous : Option Nat) (ts : List Token) : Option Nat :=
  match ts.getLast? with
  | some t => some t.stop
  | none => previous

theorem stopBehind_cons (previous : Option Nat) (t : Token) (ts : List Token) :
    stopBehind previous (t :: ts) = stopBehind (some t.stop) ts := by
  unfold stopBehind
  rw [List.getLast?_cons]
  cases ts.getLast? <;> rfl

theorem tokensOf_append (previous : Option Nat) (ps qs : List Piece) :
    tokensOf previous (ps ++ qs) =
      tokensOf previous ps ++ tokensOf (stopBehind previous (tokensOf previous ps)) qs := by
  induction ps generalizing previous with
  | nil => rfl
  | cons p ps ih =>
    cases kind : p.kind with
    | token k =>
      have behind := ih (some (Token.stop ⟨k, p.chars, p.start, previous == some p.start⟩))
      simp only [List.cons_append, tokensOf, kind, stopBehind_cons]
      rw [behind]
    | skipped => simpa [tokensOf, kind] using ih previous
    | fault => simpa [tokensOf, kind] using ih previous

theorem mem_tokensOf {previous : Option Nat} {ps : List Piece} {t : Token} (h : t ∈ tokensOf previous ps) :
    ⟨.token t.kind, t.chars, t.start⟩ ∈ ps := by
  induction ps generalizing previous with
  | nil => cases h
  | cons p ps ih =>
    obtain ⟨kind, chars, start⟩ := p
    cases kind with
    | token k =>
      rcases List.mem_cons.mp h with rfl | h
      · exact List.mem_cons_self
      · exact List.mem_cons_of_mem _ (ih h)
    | skipped => exact List.mem_cons_of_mem _ (ih h)
    | fault => exact List.mem_cons_of_mem _ (ih h)

theorem exists_mem_tokensOf {ps : List Piece} {p : Piece} {kind : TokenKind} (token : p.kind = .token kind)
    (h : p ∈ ps) (previous : Option Nat) :
    ∃ t ∈ tokensOf previous ps, t.kind = kind ∧ t.chars = p.chars ∧ t.start = p.start := by
  induction ps generalizing previous with
  | nil => cases h
  | cons p' ps ih =>
    rcases List.mem_cons.mp h with rfl | h
    · exact ⟨⟨kind, p.chars, p.start, previous == some p.start⟩, by simp [tokensOf, token], rfl, rfl, rfl⟩
    cases kind' : p'.kind with
    | token k =>
      obtain ⟨t, ht, same⟩ := ih h (some (Token.stop ⟨k, p'.chars, p'.start, previous == some p'.start⟩))
      exact ⟨t, by simp [tokensOf, kind', ht], same⟩
    | skipped =>
      obtain ⟨t, ht, same⟩ := ih h previous
      exact ⟨t, by simpa [tokensOf, kind'] using ht, same⟩
    | fault =>
      obtain ⟨t, ht, same⟩ := ih h previous
      exact ⟨t, by simpa [tokensOf, kind'] using ht, same⟩

/-- A text that is cut into tokens strictly is one without faults. -/
theorem tokensStrict_eq_ok_iff {cs : List Char} {ts : List Token} :
    tokensStrict cs = .ok ts ↔ Sound cs ∧ tokens cs = ts := by
  have faultless : firstFault? cs = none ↔ Sound cs := by
    simp [Sound, firstFault?, List.find?_eq_none]
  unfold tokensStrict
  rw [← faultless]
  cases firstFault? cs <;> simp

/-- Where two texts meet, the tokens of the one are followed by the tokens of the other. -/
theorem tokensFrom_append {cs : List Char} (finished : Finished cs) (previous : Option Nat) (start : Nat) :
    ∃ last, ∀ rest, Apart rest → tokensFrom previous start (cs ++ rest) =
      tokensFrom previous start cs ++ tokensFrom last (start + Text.byteSize cs) rest := by
  refine ⟨stopBehind previous (tokensFrom previous start cs), fun rest apart => ?_⟩
  unfold tokensFrom
  rw [scan_append apart (finished.at start), tokensOf_append]

theorem start_of_mem_tokensFrom {previous : Option Nat} {start : Nat} {cs : List Char} {t : Token}
    (h : t ∈ tokensFrom previous start cs) : start ≤ t.start ∧ t.start < start + Text.byteSize cs :=
  start_of_mem_scan (mem_tokensOf h)

end Stylebook.Lexer
