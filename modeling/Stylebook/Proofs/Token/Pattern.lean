import Mathlib.Computability.Language
import Stylebook.Proofs.Token.Spelling

/-!
# What tokens are meant to look like

Each kind of token is the language of a regular expression, written down here with the operations on languages and
without a word about how far to read (`TokenKind.pattern`). The lexer computes lengths instead. That both come to the
same is shown in two halves: what is recognized is a word of its kind (`mem_pattern_of_recognize`), and where a word of
some kind stands, the lexer recognizes something that is at least as long, and that word itself if the two are of equal
length (`takes_of_mem_pattern`).

The first half reads `Spells`. In the second, each length that the lexer computes is an upper bound for the words of the
expression that it stands for. Only a dimension needs more: its figure has to be as long as the lexer takes it to be, or
the unit would be looked for in the wrong place. That holds because no unit starts with what a figure may go on with.
-/

set_option autoImplicit false

namespace Stylebook

open scoped Computability

/-! ## Regular expressions -/

namespace Pattern

open Lexer (isNameStart isNameChar isHexDigit)

/-- One character of the class `p`. -/
def oneOf (p : Char → Bool) : Language Char :=
  {w | ∃ c, p c = true ∧ w = [c]}

/-- Nothing, or a word of `l`. -/
def optional (l : Language Char) : Language Char :=
  1 + l

/-- One word of `l` or more, one behind the other. -/
def many (l : Language Char) : Language Char :=
  l * l∗

/-- Between `least` and `most` words of `l`, one behind the other. -/
def between (least most : Nat) (l : Language Char) : Language Char :=
  {w | ∃ n, least ≤ n ∧ n ≤ most ∧ w ∈ l ^ n}

def sign : Language Char :=
  optional (oneOf fun c => c == '+' || c == '-')

def fraction : Language Char :=
  {['.']} * many (oneOf Char.isDigit)

/-- A number without a sign. -/
def figure : Language Char :=
  many (oneOf Char.isDigit) * optional fraction

def unit : Language Char :=
  {['%']} + many (oneOf Char.isAlpha)

def identifier : Language Char :=
  oneOf isNameStart * (oneOf isNameChar)∗

/-- What may stand between two quotes `q`: any character but the quote and the backslash, or an escape, which is a
backslash and any character but the line feed. -/
def quotable (q : Char) : Language Char :=
  oneOf (fun c => c != q && c != '\\') + {['\\']} * oneOf (· != '\n')

def quoted (q : Char) : Language Char :=
  {[q]} * ((quotable q)∗ * {[q]})

end Pattern

open Pattern in
/-- The texts that are tokens of a kind. -/
def TokenKind.pattern : TokenKind → Language Char
  | .hexColor => {['#']} * between 3 8 (oneOf Lexer.isHexDigit)
  | .dimension => sign * (figure * unit)
  | .doubleQuoted => quoted '"'
  | .singleQuoted => quoted '\''
  | .reference => ({['@']} + {['-', '-']}) * identifier
  | .number => sign * figure
  | .ident => identifier
  | .braceOpen => {['\x7b']}
  | .braceClose => {['\x7d']}
  | .parenOpen => {['(']}
  | .parenClose => {[')']}
  | .colon => {[':']}
  | .semicolon => {[';']}
  | .comma => {[',']}
  | .dot => {['.']}
  | .hash => {['#']}
  | .star => {['*']}
  | .greaterThan => {['>']}
  | .pipe => {['|']}

/-! ## Words of the expressions -/

namespace Pattern

open Lexer (isNameStart isNameChar isHexDigit isName)

variable {p : Char → Bool} {l : Language Char} {v w : List Char}

/-- Behind a fixed text stands a word of the rest. -/
theorem mem_literal_mul : w ∈ ({v} : Language Char) * l ↔ ∃ u ∈ l, w = v ++ u := by
  rw [Language.mem_mul]
  constructor
  · rintro ⟨_, rfl, u, hu, rfl⟩
    exact ⟨u, hu, rfl⟩
  · rintro ⟨u, hu, rfl⟩
    exact ⟨v, rfl, u, hu, rfl⟩

theorem mem_star_oneOf : w ∈ (oneOf p)∗ ↔ ∀ c ∈ w, p c = true := by
  constructor
  · intro h c hc
    obtain ⟨words, rfl, each⟩ := Language.mem_kstar.mp h
    obtain ⟨word, mem, inside⟩ := List.mem_flatten.mp hc
    obtain ⟨d, hd, rfl⟩ := each word mem
    rwa [List.mem_singleton.mp inside]
  · intro all
    refine Language.mem_kstar.mpr ⟨w.map fun c => [c], by simp [← List.flatMap_def], fun word mem => ?_⟩
    obtain ⟨c, hc, rfl⟩ := List.mem_map.mp mem
    exact ⟨c, all c hc, rfl⟩

theorem mem_many_oneOf : w ∈ many (oneOf p) ↔ w ≠ [] ∧ ∀ c ∈ w, p c = true := by
  unfold many
  rw [Language.mem_mul]
  constructor
  · rintro ⟨_, ⟨c, hc, rfl⟩, rest, all, rfl⟩
    exact ⟨List.cons_ne_nil _ _, List.forall_mem_cons.mpr ⟨hc, mem_star_oneOf.mp all⟩⟩
  · rintro ⟨filled, all⟩
    obtain ⟨c, rest, rfl⟩ := List.exists_cons_of_ne_nil filled
    obtain ⟨hc, all⟩ := List.forall_mem_cons.mp all
    exact ⟨[c], ⟨c, hc, rfl⟩, rest, mem_star_oneOf.mpr all, rfl⟩

theorem mem_pow_oneOf {n : Nat} : w ∈ oneOf p ^ n ↔ w.length = n ∧ ∀ c ∈ w, p c = true := by
  induction n generalizing w with
  | zero =>
    rw [pow_zero, Language.mem_one, List.length_eq_zero_iff]
    exact ⟨fun h => by simp [h], And.left⟩
  | succ n ih =>
    rw [pow_succ', Language.mem_mul]
    constructor
    · rintro ⟨_, ⟨c, hc, rfl⟩, rest, h, rfl⟩
      obtain ⟨rfl, all⟩ := ih.mp h
      exact ⟨rfl, List.forall_mem_cons.mpr ⟨hc, all⟩⟩
    · rintro ⟨length, all⟩
      obtain ⟨c, rest, rfl⟩ := List.exists_cons_of_length_eq_add_one length
      obtain ⟨hc, all⟩ := List.forall_mem_cons.mp all
      exact ⟨[c], ⟨c, hc, rfl⟩, rest, ih.mpr ⟨Nat.succ.inj length, all⟩, rfl⟩

theorem mem_between_oneOf {least most : Nat} :
    w ∈ between least most (oneOf p) ↔ least ≤ w.length ∧ w.length ≤ most ∧ ∀ c ∈ w, p c = true := by
  constructor
  · rintro ⟨n, atLeast, atMost, h⟩
    obtain ⟨rfl, all⟩ := mem_pow_oneOf.mp h
    exact ⟨atLeast, atMost, all⟩
  · rintro ⟨atLeast, atMost, all⟩
    exact ⟨w.length, atLeast, atMost, mem_pow_oneOf.mpr ⟨rfl, all⟩⟩

theorem mem_fraction : w ∈ fraction ↔ ∃ ds, w = '.' :: ds ∧ ds ≠ [] ∧ ∀ c ∈ ds, c.isDigit = true := by
  unfold fraction
  rw [mem_literal_mul]
  constructor
  · rintro ⟨ds, h, rfl⟩
    exact ⟨ds, rfl, mem_many_oneOf.mp h⟩
  · rintro ⟨ds, rfl, h⟩
    exact ⟨ds, mem_many_oneOf.mpr h, rfl⟩

theorem mem_figure : w ∈ figure ↔
    ∃ ds fs, w = ds ++ fs ∧ ds ≠ [] ∧ (∀ c ∈ ds, c.isDigit = true) ∧ (fs = [] ∨ fs ∈ fraction) := by
  unfold figure
  rw [Language.mem_mul]
  constructor
  · rintro ⟨ds, h, fs, hfs, rfl⟩
    obtain ⟨filled, all⟩ := mem_many_oneOf.mp h
    exact ⟨ds, fs, rfl, filled, all, hfs⟩
  · rintro ⟨ds, fs, rfl, filled, all, hfs⟩
    exact ⟨ds, mem_many_oneOf.mpr ⟨filled, all⟩, fs, hfs, rfl⟩

theorem mem_unit : w ∈ unit ↔ w = ['%'] ∨ w ≠ [] ∧ ∀ c ∈ w, c.isAlpha = true :=
  (Language.mem_add _ _ _).trans (or_congr Iff.rfl mem_many_oneOf)

theorem mem_identifier : w ∈ identifier ↔ isName w = true := by
  unfold identifier
  rw [Language.mem_mul]
  constructor
  · rintro ⟨_, ⟨c, hc, rfl⟩, rest, all, rfl⟩
    exact (Bool.and_eq_true _ _).mpr ⟨hc, List.all_eq_true.mpr (mem_star_oneOf.mp all)⟩
  · intro named
    cases w with
    | nil => cases named
    | cons c rest =>
      obtain ⟨hc, all⟩ := (Bool.and_eq_true _ _).mp named
      exact ⟨[c], ⟨c, hc, rfl⟩, rest, mem_star_oneOf.mpr (List.all_eq_true.mp all), rfl⟩

theorem mem_sign : w ∈ sign ↔ w = [] ∨ w = ['+'] ∨ w = ['-'] := by
  refine or_congr Iff.rfl ⟨?_, ?_⟩
  · rintro ⟨c, hc, rfl⟩
    simpa using hc
  · rintro (rfl | rfl)
    · exact ⟨'+', rfl, rfl⟩
    · exact ⟨'-', rfl, rfl⟩

theorem mem_quoted {q : Char} : w ∈ quoted q ↔ ∃ body ∈ (quotable q)∗, w = q :: (body ++ [q]) := by
  unfold quoted
  rw [mem_literal_mul]
  constructor
  · rintro ⟨_, h, rfl⟩
    obtain ⟨body, hbody, _, rfl, rfl⟩ := Language.mem_mul.mp h
    exact ⟨body, hbody, rfl⟩
  · rintro ⟨body, hbody, rfl⟩
    exact ⟨body ++ [q], Language.append_mem_mul hbody rfl, rfl⟩

theorem mem_quotable {q : Char} :
    w ∈ quotable q ↔ (∃ c, w = [c] ∧ c ≠ q ∧ c ≠ '\\') ∨ ∃ c, w = ['\\', c] ∧ c ≠ '\n' := by
  unfold quotable
  rw [Language.mem_add, mem_literal_mul]
  refine or_congr ⟨?_, ?_⟩ ⟨?_, ?_⟩
  · rintro ⟨c, hc, rfl⟩
    exact ⟨c, rfl, by simpa using hc⟩
  · rintro ⟨c, rfl, hc⟩
    exact ⟨c, by simpa using hc, rfl⟩
  · rintro ⟨_, ⟨c, hc, rfl⟩, rfl⟩
    exact ⟨c, rfl, by simpa using hc⟩
  · rintro ⟨c, rfl, hc⟩
    exact ⟨[c], ⟨c, by simpa using hc, rfl⟩, rfl⟩

theorem append_mem_star {u : List Char} (hu : u ∈ l) (hw : w ∈ l∗) : u ++ w ∈ l∗ :=
  Set.mem_of_mem_of_subset (Language.append_mem_mul hu hw) (mul_kstar_le_kstar (a := l))

end Pattern

namespace Lexer

open Pattern

/-! ## Quoted texts -/

/-- What may stand between quotes is read over. -/
theorem quotedLength_body {q : Char} {body : List Char} (h : body ∈ (quotable q)∗) (rest : List Char) :
    quotedLength q (body ++ rest) = ((quotedLength q rest).1, body.length + (quotedLength q rest).2) := by
  obtain ⟨words, rfl, each⟩ := Language.mem_kstar.mp h
  clear h
  induction words with
  | nil => simp
  | cons word words ih =>
    have later := ih fun u hu => each u (List.mem_cons_of_mem _ hu)
    rcases mem_quotable.mp (each word List.mem_cons_self) with ⟨c, rfl, quote, slash⟩ | ⟨c, rfl, line⟩
    · simp only [List.flatten_cons, List.cons_append, List.nil_append]
      rw [quotedLength, if_neg quote, later]
      · simp [Nat.add_right_comm]
      · exact slash
    · simp only [List.flatten_cons, List.cons_append, List.nil_append]
      rw [quotedLength, later]
      simp only [line, if_false, List.length_cons, Prod.mk.injEq, true_and]
      omega

/-- Where nothing more can be read between two quotes `q`: at the end of the text, at a backslash behind which there is
nothing or a line feed, and at the quote itself. -/
inductive Stops (q : Char) : List Char → Prop
  | unended : Stops q []
  | dangling : Stops q ['\\']
  | broken (rest : List Char) : Stops q ('\\' :: '\n' :: rest)
  | closed (rest : List Char) : Stops q (q :: rest)

theorem exists_body (q : Char) (cs : List Char) :
    ∃ body ∈ (quotable q)∗, ∃ rest, cs = body ++ rest ∧ Stops q rest := by
  have here {rest : List Char} (stops : Stops q rest) :
      ∃ body ∈ (quotable q)∗, ∃ rest', rest = body ++ rest' ∧ Stops q rest' :=
    ⟨[], Language.nil_mem_kstar _, rest, rfl, stops⟩
  fun_induction quotedLength q cs with
  | case1 => exact here .unended
  | case2 => exact here .dangling
  | case3 rest => exact here (.broken rest)
  | case4 c cs line _ _ _ ih =>
    obtain ⟨body, hbody, rest, rfl, stops⟩ := ih
    have escape : ['\\', c] ∈ quotable q := mem_quotable.mpr (.inr ⟨c, rfl, line⟩)
    exact ⟨['\\', c] ++ body, append_mem_star escape hbody, rest, rfl, stops⟩
  | case5 rest => exact here (.closed rest)
  | case6 c cs slash quote _ _ _ ih =>
    obtain ⟨body, hbody, rest, rfl, stops⟩ := ih
    have plain : [c] ∈ quotable q := mem_quotable.mpr (.inl ⟨c, rfl, quote, slash⟩)
    exact ⟨[c] ++ body, append_mem_star plain hbody, rest, rfl, stops⟩

theorem quotedLength_quote {q : Char} (slash : q ≠ '\\') (rest : List Char) :
    quotedLength q (q :: rest) = (true, 1) := by
  rw [quotedLength, if_pos rfl]
  exact slash

/-- A quoted text that is completed is a word of its expression. -/
theorem quoted_of_closed {q : Char} (slash : q ≠ '\\') {cs : List Char} {n : Nat}
    (closed : quotedLength q cs = (true, n)) : q :: cs.take n ∈ quoted q := by
  obtain ⟨body, hbody, rest, rfl, stops⟩ := exists_body q cs
  rw [quotedLength_body hbody] at closed
  cases stops with
  | unended => cases closed
  | dangling => cases closed
  | broken rest => simp [quotedLength] at closed
  | closed rest =>
    rw [quotedLength_quote slash] at closed
    cases closed
    exact mem_quoted.mpr ⟨body, hbody, by simp [List.take_append]⟩

theorem closed_of_quoted {q : Char} (slash : q ≠ '\\') {body : List Char} (h : body ∈ (quotable q)∗)
    (rest : List Char) : quotedLength q (body ++ q :: rest) = (true, body.length + 1) := by
  rw [quotedLength_body h, quotedLength_quote slash]

/-! ## What the lengths of the lexer cut off -/

variable {p : Char → Bool} {cs v w : List Char}

theorem take_run (h : run p cs ≠ 0) : cs.take (run p cs) ∈ many (oneOf p) := by
  refine mem_many_oneOf.mpr ⟨fun nothing => h ?_, fun _ => mem_take_run⟩
  rw [← List.length_take_of_le (run_le p cs), nothing, List.length_nil]

theorem take_fractionLength (cs : List Char) : cs.take (fractionLength cs) ∈ optional fraction := by
  unfold fractionLength
  split
  · rename_i cs
    split
    · exact .inl rfl
    · rename_i digits
      rw [Nat.add_comm, List.take_succ_cons]
      exact .inr (mem_literal_mul.mpr ⟨_, take_run digits, rfl⟩)
  · exact .inl rfl

theorem take_figureLength (h : run Char.isDigit cs ≠ 0) : cs.take (figureLength cs) ∈ figure := by
  unfold figureLength
  rw [List.take_add]
  exact Language.append_mem_mul (take_run h) (take_fractionLength _)

theorem fractionLength_of_no_point (h : ∀ c ∈ cs.head?, c ≠ '.') : fractionLength cs = 0 := by
  unfold fractionLength
  split
  · exact absurd rfl (h '.' rfl)
  · rfl

theorem unitLength_of_no_percent (h : ∀ c ∈ cs.head?, c ≠ '%') : unitLength cs = run Char.isAlpha cs := by
  unfold unitLength
  split
  · exact absurd rfl (h '%' rfl)
  · rfl

theorem take_unitLength (h : unitLength cs ≠ 0) : cs.take (unitLength cs) ∈ unit := by
  by_cases percent : cs.head? = some '%'
  · obtain ⟨rest, rfl⟩ := List.head?_eq_some_iff.mp percent
    exact .inl rfl
  · have letters : unitLength cs = run Char.isAlpha cs :=
      unitLength_of_no_percent fun c hc same => percent (same ▸ hc)
    rw [letters] at h ⊢
    exact .inr (take_run h)

theorem take_number {n : Nat} (h : numeral? cs = some (.number, n)) : cs.take n ∈ figure := by
  simp only [numeral?_eq, Option.ite_none_left_eq_some, Option.some.injEq] at h
  obtain ⟨digits, found⟩ := h
  split at found <;> cases found
  exact take_figureLength digits

theorem take_dimension {n : Nat} (h : numeral? cs = some (.dimension, n)) : cs.take n ∈ figure * unit := by
  simp only [numeral?_eq, Option.ite_none_left_eq_some, Option.some.injEq] at h
  obtain ⟨digits, found⟩ := h
  split at found <;> cases found
  rename_i letters
  rw [List.take_add]
  exact Language.append_mem_mul (take_figureLength digits) (take_unitLength letters)

theorem take_name {c : Char} (start : isNameStart c = true) (cs : List Char) :
    c :: cs.take (run isNameChar cs) ∈ identifier :=
  mem_identifier.mpr ((Bool.and_eq_true _ _).mpr ⟨start, List.all_eq_true.mpr fun _ => mem_take_run⟩)

theorem take_nameLength (h : nameLength cs ≠ 0) : cs.take (nameLength cs) ∈ identifier := by
  cases cs with
  | nil => exact absurd rfl h
  | cons c cs =>
    by_cases start : isNameStart c = true
    · rw [nameLength, if_pos start, Nat.add_comm, List.take_succ_cons]
      exact take_name start cs
    · simp [nameLength, start] at h

/-- A sign may stand in front of a number, and need not. -/
theorem mem_sign_mul {l : Language Char} {c : Char} {n : Nat}
    (h : (c :: cs).take (n + 1) ∈ l ∨ (c = '+' ∨ c = '-') ∧ cs.take n ∈ l) : c :: cs.take n ∈ sign * l := by
  rcases h with whole | ⟨mark, rest⟩
  · exact Language.append_mem_mul (mem_sign.mpr (.inl rfl)) whole
  · have signed : [c] ∈ sign := mem_sign.mpr (.inr (by simpa using mark))
    exact Language.append_mem_mul signed rest

theorem punctuation?_mem_pattern {c : Char} {kind : TokenKind} (h : punctuation? c = some kind) :
    [c] ∈ kind.pattern := by
  unfold punctuation? at h
  split at h <;> cases h <;> rfl

theorem mem_pattern_of_spells {c : Char} {kind : TokenKind} {n : Nat} (h : Spells c cs n kind) :
    c :: cs.take n ∈ kind.pattern := by
  cases kind with
  | hexColor =>
    obtain ⟨rfl, length, atLeast⟩ := h
    have within := run_le isHexDigit cs
    have cut : (cs.take n).length = n := List.length_take_of_le (by omega)
    refine mem_literal_mul.mpr ⟨cs.take n, mem_between_oneOf.mpr ⟨by omega, by omega, fun d hd => ?_⟩, rfl⟩
    exact mem_take_run (List.take_subset_take_left _ (by omega) hd)
  | dimension => exact mem_sign_mul (h.imp (fun h => take_dimension h.2) fun h => ⟨h.1, take_dimension h.2⟩)
  | number => exact mem_sign_mul (h.imp (fun h => take_number h.2) fun h => ⟨h.1, take_number h.2⟩)
  | doubleQuoted =>
    obtain ⟨rfl, closed⟩ := h
    exact quoted_of_closed (by decide) closed
  | singleQuoted =>
    obtain ⟨rfl, closed⟩ := h
    exact quoted_of_closed (by decide) closed
  | reference =>
    rcases h with ⟨rfl, rfl, some⟩ | ⟨rfl, name, rfl, rfl, some⟩
    · have mark : ['@'] ∈ ({['@']} + {['-', '-']} : Language Char) := .inl rfl
      exact Language.append_mem_mul mark (take_nameLength some)
    · have mark : ['-', '-'] ∈ ({['@']} + {['-', '-']} : Language Char) := .inr rfl
      rw [Nat.add_comm, List.take_succ_cons]
      exact Language.append_mem_mul mark (take_nameLength some)
  | ident =>
    obtain ⟨start, rfl⟩ := h
    exact take_name start cs
  | hash =>
    obtain ⟨rfl, rfl, _⟩ := h
    rfl
  | _ =>
    obtain ⟨mark, rfl⟩ := h
    exact punctuation?_mem_pattern mark

/-- What is recognized is a word of its kind. -/
theorem mem_pattern_of_recognize {c : Char} {kind : TokenKind} {n : Nat} (h : recognize c cs = (some kind, n)) :
    c :: cs.take n ∈ kind.pattern :=
  mem_pattern_of_spells (spells_of_recognize h)

/-! ## Nothing longer is missed -/

theorem length_le_run (all : ∀ c ∈ v, p c = true) (stands : v <+: cs) : v.length ≤ run p cs := by
  have whole : run p v = v.length := by rw [run, List.takeWhile_eq_self_iff.mpr all]
  exact whole ▸ run_mono stands

theorem length_le_fractionLength (h : v ∈ optional fraction) (stands : v <+: cs) :
    v.length ≤ fractionLength cs := by
  rcases h with rfl | h
  · exact Nat.zero_le _
  · obtain ⟨ds, rfl, filled, digits⟩ := mem_fraction.mp h
    obtain ⟨rest, rfl⟩ := stands
    have atLeast := length_le_run digits (List.prefix_append ds rest)
    have positive := List.length_pos_of_ne_nil filled
    rw [List.cons_append, fractionLength, if_neg (by omega), List.length_cons]
    omega

/-- Digits come before all letters. -/
theorem isDigit_of_isAlpha {c : Char} (letter : c.isAlpha = true) : c.isDigit = false := by
  by_contra digit
  obtain ⟨-, nine⟩ := (Bool.and_eq_true _ _).mp (eq_true_of_ne_false digit)
  have last : c ≤ '9' := of_decide_eq_true nine
  rcases (Bool.or_eq_true _ _).mp letter with upper | lower
  · have first : 'A' ≤ c := (of_decide_eq_true upper).1
    exact absurd (Char.le_trans first last) (by decide)
  · obtain ⟨a, -⟩ := (Bool.and_eq_true _ _).mp lower
    have first : 'a' ≤ c := of_decide_eq_true a
    exact absurd (Char.le_trans first last) (by decide)

theorem isNameStart_of_isDigit {c : Char} (digit : c.isDigit = true) : isNameStart c = false := by
  by_contra start
  rcases (Bool.or_eq_true _ _).mp (eq_true_of_ne_false start) with letter | under
  · exact absurd digit (by simp [isDigit_of_isAlpha letter])
  · rw [beq_iff_eq.mp under] at digit
    cases digit

/-- A unit starts with a percent sign or a letter, so with nothing that a figure may go on with. -/
theorem exists_cons_of_unit (h : v ∈ unit) : ∃ c w, v = c :: w ∧ c.isDigit = false ∧ c ≠ '.' := by
  rcases mem_unit.mp h with rfl | ⟨filled, letters⟩
  · exact ⟨'%', [], rfl, by decide, by decide⟩
  · obtain ⟨c, w, rfl⟩ := List.exists_cons_of_ne_nil filled
    have letter := letters c List.mem_cons_self
    refine ⟨c, w, rfl, isDigit_of_isAlpha letter, ?_⟩
    rintro rfl
    cases letter

theorem length_le_unitLength (h : v ∈ unit) (stands : v <+: cs) : v.length ≤ unitLength cs := by
  obtain ⟨rest, rfl⟩ := stands
  rcases mem_unit.mp h with rfl | ⟨filled, letters⟩
  · exact Nat.le_refl 1
  · have percent : ∀ c ∈ (v ++ rest).head?, c ≠ '%' := by
      obtain ⟨d, ds, rfl⟩ := List.exists_cons_of_ne_nil filled
      rintro c ⟨⟩ rfl
      exact absurd (letters '%' List.mem_cons_self) (by decide)
    rw [unitLength_of_no_percent percent]
    exact length_le_run letters (List.prefix_append v rest)

/-- What a figure may go on with is a digit or a point. -/
theorem figureLength_append_of_mem {rest : List Char} (h : v ∈ figure)
    (stop : ∀ c ∈ rest.head?, c.isDigit = false ∧ c ≠ '.') : figureLength (v ++ rest) = v.length := by
  obtain ⟨ds, fs, rfl, -, digits, fraction⟩ := mem_figure.mp h
  obtain ⟨behind, part⟩ : (∀ c ∈ (fs ++ rest).head?, c.isDigit = false) ∧
      fractionLength (fs ++ rest) = fs.length := by
    rcases fraction with rfl | hfs
    · exact ⟨fun c hc => (stop c hc).1, fractionLength_of_no_point fun c hc => (stop c hc).2⟩
    · obtain ⟨es, rfl, filled, digits⟩ := mem_fraction.mp hfs
      have positive := List.length_pos_of_ne_nil filled
      have exactly : run Char.isDigit (es ++ rest) = es.length :=
        run_append_of_all digits fun c hc => (stop c hc).1
      refine ⟨by rintro c ⟨⟩; rfl, ?_⟩
      rw [List.cons_append, fractionLength, exactly, if_neg (by omega), List.length_cons, Nat.add_comm]
  have whole : run Char.isDigit (ds ++ (fs ++ rest)) = ds.length := run_append_of_all digits behind
  rw [List.append_assoc, figureLength, whole, List.drop_left, part, List.length_append]

theorem length_le_figureLength (h : v ∈ figure) (stands : v <+: cs) : v.length ≤ figureLength cs := by
  obtain ⟨ds, fs, rfl, -, digits, fraction⟩ := mem_figure.mp h
  obtain ⟨rest, rfl⟩ := stands
  rcases fraction with rfl | hfs
  · have atLeast := length_le_run digits (List.prefix_append ds rest)
    rw [List.append_nil, figureLength]
    omega
  · obtain ⟨es, rfl, -, -⟩ := mem_fraction.mp hfs
    have whole : run Char.isDigit (ds ++ ('.' :: es ++ rest)) = ds.length :=
      run_append_of_all digits (by rintro c ⟨⟩; rfl)
    have part := length_le_fractionLength (.inr hfs) (List.prefix_append ('.' :: es) rest)
    rw [List.append_assoc, figureLength, whole, List.drop_left, List.length_append]
    omega

/-- Where a figure stands, a number is recognized. -/
theorem numeral?_of_figure (h : v ∈ figure) (stands : v <+: cs) :
    numeral? cs = some (if unitLength (cs.drop (figureLength cs)) = 0 then (.number, figureLength cs)
      else (.dimension, figureLength cs + unitLength (cs.drop (figureLength cs)))) := by
  obtain ⟨ds, fs, rfl, filled, digits, -⟩ := mem_figure.mp h
  have atLeast := length_le_run digits ((List.prefix_append ds fs).trans stands)
  have positive := List.length_pos_of_ne_nil filled
  rw [numeral?_eq, if_neg (by omega)]

theorem numeral?_of_number (h : v ∈ figure) (stands : v <+: cs) :
    ∃ kind n, numeral? cs = some (kind, n) ∧ v.length ≤ n ∧ (v.length = n → kind = .number) := by
  have atLeast := length_le_figureLength h stands
  rw [numeral?_of_figure h stands]
  split
  · exact ⟨_, _, rfl, atLeast, fun _ => rfl⟩
  · exact ⟨_, _, rfl, by omega, by omega⟩

theorem numeral?_of_dimension (h : v ∈ figure * unit) (stands : v <+: cs) :
    ∃ n, numeral? cs = some (.dimension, n) ∧ v.length ≤ n := by
  obtain ⟨f, hf, u, hu, rfl⟩ := Language.mem_mul.mp h
  obtain ⟨rest, rfl⟩ := stands
  have atLeast := length_le_unitLength hu (List.prefix_append u rest)
  obtain ⟨c, w, rfl, stop⟩ := exists_cons_of_unit hu
  have exactly : figureLength (f ++ (c :: w ++ rest)) = f.length :=
    figureLength_append_of_mem hf (by rintro d ⟨⟩; exact stop)
  have some : unitLength (c :: w ++ rest) ≠ 0 := by
    rw [List.length_cons] at atLeast
    omega
  rw [List.append_assoc, numeral?_of_figure hf (List.prefix_append f _), exactly, List.drop_left, if_neg some]
  exact ⟨_, rfl, by rw [List.length_append]; omega⟩

theorem isDigit_of_numeral? {c : Char} {found : TokenKind × Nat} (h : numeral? (c :: cs) = some found) :
    c.isDigit = true := by
  by_contra other
  have nothing : run Char.isDigit (c :: cs) = 0 := run_eq_zero (by simpa using other)
  rw [numeral?_eq, if_pos nothing] at h
  cases h

theorem recognize_of_number {c : Char} {kind : TokenKind} {n : Nat}
    (found : numeral? (c :: cs) = some (kind, n + 1)) : recognize c cs = (some kind, n) := by
  have digit := isDigit_of_numeral? found
  have other (d : Char) (h : d.isDigit = false) : c ≠ d := by
    rintro rfl
    simp [digit] at h
  simp [recognize_eq, isNameStart_of_isDigit digit, digit, other '"' rfl, other '\'' rfl, other '@' rfl,
    other '#' rfl, found]

theorem recognize_of_sign {c : Char} (mark : c = '+' ∨ c = '-') {kind : TokenKind} {n : Nat}
    (found : numeral? cs = some (kind, n)) : recognize c cs = (some kind, n) := by
  have here : recognize c cs = signed c cs := by rcases mark with rfl | rfl <;> rfl
  rw [here]
  unfold signed
  simp only [found]

theorem recognize_of_punctuation {c : Char} {kind : TokenKind} (mark : punctuation? c = some kind) (hash : c ≠ '#')
    (cs : List Char) : recognize c cs = (some kind, 0) := by
  unfold punctuation? at mark
  split at mark <;> cases mark
  case h_9 => exact absurd rfl hash
  all_goals rfl

/-- The lexer takes a word of the kind and of that length, or something longer. -/
def Takes (found : Option TokenKind × Nat) (kind : TokenKind) (length : Nat) : Prop :=
  ∃ kind' n, found = (some kind', n) ∧ length ≤ n + 1 ∧ (length = n + 1 → kind' = kind)

/-- A number is recognized with its sign, if what is recognized behind the sign is a number. -/
theorem takes_of_sign {l : Language Char} {kind : TokenKind}
    (number : ∀ v ∈ l, ∀ cs, v <+: cs →
      ∃ kind' n, numeral? cs = some (kind', n) ∧ v.length ≤ n ∧ (v.length = n → kind' = kind))
    (h : w ∈ sign * l) {c : Char} (stands : w <+: c :: cs) : Takes (recognize c cs) kind w.length := by
  obtain ⟨s, hs, v, hv, rfl⟩ := Language.mem_mul.mp h
  obtain ⟨rest, whole⟩ := stands
  have signed (mark : c = '+' ∨ c = '-') (same : s = [c]) : Takes (recognize c cs) kind (s ++ v).length := by
    subst same
    obtain ⟨kind', n, found, atLeast, same⟩ := number v hv cs ⟨rest, (List.cons.inj whole).2⟩
    refine ⟨kind', n, recognize_of_sign mark found, ?_, fun length => same ?_⟩
    · simpa using atLeast
    · simpa using length
  rcases mem_sign.mp hs with rfl | rfl | rfl
  · obtain ⟨kind', n, found, atLeast, same⟩ := number v hv (c :: cs) ⟨rest, whole⟩
    obtain ⟨m, rfl⟩ := Nat.exists_eq_add_one.mpr (numeral?_pos found)
    exact ⟨kind', m, recognize_of_number found, atLeast, same⟩
  · obtain ⟨rfl, -⟩ := List.cons.inj whole
    exact signed (.inl rfl) rfl
  · obtain ⟨rfl, -⟩ := List.cons.inj whole
    exact signed (.inr rfl) rfl

theorem referenceFrom_of_identifier (h : v ∈ identifier) (stands : v <+: cs) (mark : Nat) :
    ∃ n, referenceFrom mark cs = (some .reference, mark + n) ∧ v.length ≤ n := by
  obtain ⟨rest, rfl⟩ := stands
  have named := mem_identifier.mp h
  cases v with
  | nil => cases named
  | cons c v =>
    obtain ⟨start, all⟩ := (Bool.and_eq_true _ _).mp named
    have atLeast := length_le_run (List.all_eq_true.mp all) (List.prefix_append v rest)
    refine ⟨run isNameChar (v ++ rest) + 1, ?_, Nat.succ_le_succ atLeast⟩
    rw [List.cons_append, referenceFrom, nameLength, if_pos start, Nat.add_comm 1]
    simp

theorem takes_of_quoted {q c : Char} {kind : TokenKind} (slash : q ≠ '\\')
    (here : ∀ cs, recognize q cs = quotedFrom q kind cs) (h : w ∈ quoted q) (stands : w <+: c :: cs) :
    Takes (recognize c cs) kind w.length := by
  obtain ⟨body, hbody, rfl⟩ := mem_quoted.mp h
  obtain ⟨rest, whole⟩ := stands
  obtain ⟨rfl, rfl⟩ : c = q ∧ cs = body ++ q :: rest := by simpa [eq_comm] using whole
  refine ⟨kind, body.length + 1, ?_, by simp, fun _ => rfl⟩
  rw [here, quotedFrom, closed_of_quoted slash hbody rest]
  rfl

/-- Where a word of a kind stands, the lexer recognizes it or something longer. -/
theorem takes_of_mem_pattern {kind : TokenKind} (h : w ∈ kind.pattern) {c : Char} (stands : w <+: c :: cs) :
    Takes (recognize c cs) kind w.length := by
  have mark {d : Char} {k : TokenKind} (found : punctuation? d = some k) (hash : d ≠ '#')
      (stands : [d] <+: c :: cs) : Takes (recognize c cs) k 1 := by
    obtain ⟨rest, whole⟩ := stands
    cases whole
    exact ⟨k, 0, recognize_of_punctuation found hash _, Nat.le_refl 1, fun _ => rfl⟩
  cases kind with
  | hexColor =>
    obtain ⟨ds, hds, rfl⟩ := mem_literal_mul.mp h
    obtain ⟨atLeast, atMost, digits⟩ := mem_between_oneOf.mp hds
    obtain ⟨rest, whole⟩ := stands
    cases whole
    have reaches := length_le_run digits (List.prefix_append ds rest)
    have enough : ¬min 8 (run isHexDigit (ds ++ rest)) < 3 := by omega
    refine ⟨.hexColor, _, if_neg enough, ?_, fun _ => rfl⟩
    rw [List.length_append, List.length_singleton]
    dsimp only [List.append_eq, List.nil_append]
    omega
  | dimension =>
    refine takes_of_sign (fun v hv cs stands => ?_) h stands
    obtain ⟨n, found, atLeast⟩ := numeral?_of_dimension hv stands
    exact ⟨_, n, found, atLeast, fun _ => rfl⟩
  | number => exact takes_of_sign (fun v hv cs stands => numeral?_of_number hv stands) h stands
  | doubleQuoted => exact takes_of_quoted (by decide) (fun _ => rfl) h stands
  | singleQuoted => exact takes_of_quoted (by decide) (fun _ => rfl) h stands
  | reference =>
    obtain ⟨m, hm, v, hv, rfl⟩ := Language.mem_mul.mp h
    obtain ⟨rest, whole⟩ := stands
    rcases (Language.mem_add _ _ _).mp hm with rfl | rfl
    · cases whole
      obtain ⟨n, found, atLeast⟩ := referenceFrom_of_identifier hv (List.prefix_append v rest) 0
      exact ⟨_, _, found, by simpa using atLeast, fun _ => rfl⟩
    · cases whole
      obtain ⟨n, found, atLeast⟩ := referenceFrom_of_identifier hv (List.prefix_append v rest) 1
      refine ⟨_, _, found, ?_, fun _ => rfl⟩
      rw [List.length_append, List.length_cons, List.length_singleton]
      omega
  | ident =>
    have named := mem_identifier.mp h
    obtain ⟨rest, whole⟩ := stands
    cases w with
    | nil => cases named
    | cons d v =>
      cases whole
      obtain ⟨start, all⟩ := (Bool.and_eq_true _ _).mp named
      have atLeast := length_le_run (List.all_eq_true.mp all) (List.prefix_append v rest)
      exact ⟨.ident, _, recognize_of_isNameStart start _, Nat.succ_le_succ atLeast, fun _ => rfl⟩
  | hash =>
    cases h
    obtain ⟨rest, whole⟩ := stands
    cases whole
    by_cases few : min 8 (run isHexDigit rest) < 3
    · exact ⟨.hash, 0, if_pos few, Nat.le_refl 1, fun _ => rfl⟩
    · exact ⟨.hexColor, _, if_neg few, by simp, by simp; omega⟩
  | _ =>
    cases h
    exact mark rfl (by decide) stands

end Lexer

end Stylebook
