import Stylebook.Proofs.Text.Trimming
import Stylebook.Proofs.Token.Pattern
import Stylebook.Value.Figure

/-!
# Figures are read back from their text

A figure is written as its numbers in braces, a rectangle with braces inside of braces. The reader drops all braces and
cuts at the commas, so what it has to find is the row of numbers with commas in between, however they are grouped
(`Written`). That is read back if the text of each number is (`Scalar.Legible`), because nothing in such a text is a
comma, a brace, a blank or a quote. The last two also make the quotes around a figure come off exactly.

What the text of a number looks like is not shown here. It is what the library expects of its scalars, and a condition
on each of the numbers.
-/

set_option autoImplicit false

namespace Stylebook

variable {α : Type} [Scalar α]

/-! ## Texts of numbers -/

namespace Scalar

/-- Whether the scalar is comparable with itself and not infinite: what is left when it is taken from itself is
comparable as well. -/
def isFinite (x : α) : Bool :=
  isComparable x && isComparable (x - x)

/-- Digits, with a minus sign in front or without, and with a fraction or without. -/
def decimal : Language Char :=
  Pattern.optional {['-']} * Pattern.figure

/-- What is expected of the text of a number: it denotes that number, it is a decimal number if the number is finite,
and a word for infinity if it is not. -/
structure Legible (x : α) : Prop where
  read : read? (render x).toList = some x
  finite : isFinite x = true → (render x).toList ∈ decimal
  infinite : isFinite x = false → render x = "inf" ∨ render x = "-inf"

/-- The lexer can tell whether what stands behind the sign is a decimal number. -/
theorem legible_of_numeral {x : α} (read : read? (render x).toList = some x) (finite : isFinite x = true)
    {s w : List Char} (text : (render x).toList = s ++ w) (sign : s = [] ∨ s = ['-'])
    (numeral : Lexer.numeral? w = some (.number, w.length)) : Legible x where
  read := read
  finite _ := by
    have figure := Lexer.take_number numeral
    rw [List.take_length] at figure
    rw [text]
    exact Language.append_mem_mul sign figure
  infinite other := by simp [finite] at other

/-- Characters of decimal numbers and of the words for infinity. -/
def isFigureChar (c : Char) : Bool :=
  c.isDigit || ['-', '.', 'i', 'n', 'f'].contains c

theorem isFigureChar_of_isDigit {c : Char} (digit : c.isDigit = true) : isFigureChar c = true := by
  simp [isFigureChar, digit]

theorem isFigureChar_of_mem_decimal {w : List Char} (h : w ∈ decimal) : ∀ c ∈ w, isFigureChar c = true := by
  obtain ⟨s, hs, f, hf, rfl⟩ := Language.mem_mul.mp h
  obtain ⟨ds, fs, rfl, -, digits, fraction⟩ := Pattern.mem_figure.mp hf
  have sign : ∀ c ∈ s, isFigureChar c = true := by
    rcases hs with rfl | rfl <;> simp [isFigureChar]
  have behind : ∀ c ∈ fs, isFigureChar c = true := by
    rcases fraction with rfl | hfs
    · simp
    · obtain ⟨es, rfl, -, digits⟩ := Pattern.mem_fraction.mp hfs
      exact List.forall_mem_cons.mpr ⟨rfl, fun c hc => isFigureChar_of_isDigit (digits c hc)⟩
  intro c hc
  simp only [List.mem_append] at hc
  rcases hc with hc | hc | hc
  · exact sign c hc
  · exact isFigureChar_of_isDigit (digits c hc)
  · exact behind c hc

theorem Legible.isFigureChar {x : α} (legible : Legible x) : ∀ c ∈ (render x).toList, isFigureChar c = true := by
  cases finite : isFinite x with
  | true => exact isFigureChar_of_mem_decimal (legible.finite finite)
  | false => rcases legible.infinite finite with h | h <;> rw [h] <;> exact List.all_eq_true.mp rfl

/-- Nothing in the text of a number separates, encloses or is trimmed. -/
theorem plain_of_isFigureChar {c : Char} (h : isFigureChar c = true) :
    c ≠ ',' ∧ c ≠ '\x7b' ∧ c ≠ '\x7d' ∧ (Text.isBlank c || Text.isQuote c) = false := by
  rcases (Bool.or_eq_true _ _).mp h with digit | other
  · have other (d : Char) (h : d.isDigit = false) : c ≠ d := by
      rintro rfl
      simp [digit] at h
    have range : 48 ≤ c.toNat ∧ c.toNat ≤ 57 := by
      simpa [Char.isDigit, UInt32.le_iff_toNat_le] using digit
    have blank : Text.isBlank c = false := by
      by_contra blank
      have point := Text.mem_blankPoints (eq_true_of_ne_false blank)
      simp only [Text.blankPoints, List.mem_append, List.mem_range'_1, List.mem_cons, List.not_mem_nil,
        or_false] at point
      omega
    simp [other ',' rfl, other '\x7b' rfl, other '\x7d' rfl, blank, Text.isQuote, other '"' rfl, other '\'' rfl]
  · simp only [List.contains_iff_mem, List.mem_cons, List.not_mem_nil, or_false] at other
    rcases other with rfl | rfl | rfl | rfl | rfl <;> decide

/-- Nothing in the text of a number is taken away with blanks and quotes. -/
theorem Legible.plain {x : α} (legible : Legible x) :
    ∀ c ∈ (render x).toList, (Text.isBlank c || Text.isQuote c) = false :=
  fun c hc => (plain_of_isFigureChar (legible.isFigureChar c hc)).2.2.2

end Scalar

/-! ## Cutting at commas -/

namespace Text

/-- Texts without commas are what a text of them with commas in between is cut into, each but the first behind the
blank that follows a comma. -/
theorem splitWhere_intercalate {w : List Char} {ws : List (List Char)} (none : ∀ v ∈ w :: ws, ',' ∉ v) :
    splitWhere (· == ',') ([',', ' '].intercalate (w :: ws)) = w :: ws.map (' ' :: ·) := by
  have blanks (w : List Char) (ws : List (List Char)) :
      [',', ' '].intercalate (w :: ws) = [','].intercalate (w :: ws.map (' ' :: ·)) := by
    induction ws generalizing w with
    | nil => rw [List.map_nil, List.intercalate_singleton, List.intercalate_singleton]
    | cons v ws ih =>
      rw [List.map_cons, List.intercalate_cons_cons, List.intercalate_cons_cons, List.intercalate_cons_cons_left, ih]
      simp
  rw [blanks]
  apply splitWhere_intercalate_singleton rfl (List.cons_ne_nil _ _)
  intro v hv c hc
  obtain ⟨first, later⟩ := List.forall_mem_cons.mp none
  rw [beq_eq_false_iff_ne]
  rintro rfl
  rcases List.mem_cons.mp hv with rfl | spaced
  · exact first hc
  · obtain ⟨u, hu, rfl⟩ := List.mem_map.mp spaced
    exact later u hu (by simpa using hc)

theorem filter_intercalate {p : Char → Bool} {b : List Char} (kept : b.filter p = b) (ws : List (List Char)) :
    (b.intercalate ws).filter p = b.intercalate (ws.map (·.filter p)) := by
  induction ws with
  | nil => rfl
  | cons w ws ih =>
    cases ws with
    | nil => simp
    | cons v ws =>
      rw [List.map_cons] at ih
      rw [List.intercalate_cons_cons, List.filter_append, List.filter_append, kept, ih, List.map_cons, List.map_cons,
        List.intercalate_cons_cons]

end Text

/-! ## The row of numbers in a text -/

/-- The texts of the numbers. -/
def fields (numbers : List α) : List (List Char) :=
  numbers.map fun x => (Scalar.render x).toList

/-- Whether a character is left when braces are dropped. -/
def isInner (c : Char) : Bool :=
  c ≠ '\x7b' && c ≠ '\x7d'

/-- The numbers describe the figure, and inside of its braces, if no brace is looked at, the text is the row of these
numbers with commas in between. -/
structure Written {S : Type → Type} [Shape S] (figure : S α) (numbers : List α) (text : String) : Prop where
  filled : numbers ≠ []
  count : numbers.length = Shape.count S
  describes : Shape.ofComponents? numbers = some figure
  braces : ∃ inner, text.toList = '\x7b' :: (inner ++ ['\x7d']) ∧
    inner.filter isInner = [',', ' '].intercalate (fields numbers)

theorem toList_braced (members : List String) :
    (braced members).toList = '\x7b' :: ([',', ' '].intercalate (members.map String.toList) ++ ['\x7d']) := by
  simp [braced, enclosed]

/-- Dropping the braces of a text in braces leaves what it leaves of the members. -/
theorem filter_members (members : List String) :
    ([',', ' '].intercalate (members.map String.toList)).filter isInner =
      [',', ' '].intercalate (members.map fun m => m.toList.filter isInner) := by
  rw [Text.filter_intercalate rfl, List.map_map]
  rfl

/-- The texts of numbers hold no braces. -/
theorem filter_fields {numbers : List α} (legible : ∀ x ∈ numbers, Scalar.Legible x) :
    ((numbers.map Scalar.render).map fun m => m.toList.filter isInner) = fields numbers := by
  rw [List.map_map]
  refine List.map_congr_left fun x hx => List.filter_eq_self.mpr fun c hc => ?_
  obtain ⟨-, first, last, -⟩ := Scalar.plain_of_isFigureChar ((legible x hx).isFigureChar c hc)
  simp [isInner, first, last]

theorem filter_braced {numbers : List α} (legible : ∀ x ∈ numbers, Scalar.Legible x) :
    (braced (numbers.map Scalar.render)).toList.filter isInner = [',', ' '].intercalate (fields numbers) := by
  rw [toList_braced, List.filter_cons_of_neg (by decide), List.filter_append, filter_members, filter_fields legible]
  exact List.append_nil _

/-- A row of numbers in braces is written by these numbers. -/
theorem written_braced {S : Type → Type} [Shape S] {figure : S α} {numbers : List α} (filled : numbers ≠ [])
    (count : numbers.length = Shape.count S) (describes : Shape.ofComponents? numbers = some figure)
    (legible : ∀ x ∈ numbers, Scalar.Legible x) : Written figure numbers (braced (numbers.map Scalar.render)) where
  filled := filled
  count := count
  describes := describes
  braces := ⟨_, toList_braced _, by rw [filter_members, filter_fields legible]⟩

theorem Point.written (p : Point α) (legible : ∀ x ∈ [p.x, p.y], Scalar.Legible x) :
    Written p [p.x, p.y] p.text :=
  written_braced (List.cons_ne_nil _ _) rfl rfl legible

theorem Offset.written (d : Offset α) (legible : ∀ x ∈ [d.horizontal, d.vertical], Scalar.Legible x) :
    Written d [d.horizontal, d.vertical] d.text :=
  written_braced (List.cons_ne_nil _ _) rfl rfl legible

theorem Size.written (s : Size α) (legible : ∀ x ∈ [s.width, s.height], Scalar.Legible x) :
    Written s [s.width, s.height] s.text :=
  written_braced (List.cons_ne_nil _ _) rfl rfl legible

theorem Insets.written (i : Insets α) (legible : ∀ x ∈ [i.top, i.left, i.bottom, i.right], Scalar.Legible x) :
    Written i [i.top, i.left, i.bottom, i.right] i.text :=
  written_braced (List.cons_ne_nil _ _) rfl rfl legible

/-- A rectangle is written as its position and its size, but what is left without the braces is one row of numbers. -/
theorem Rect.written (r : Rect α) (legible : ∀ x ∈ [r.x, r.y, r.width, r.height], Scalar.Legible x) :
    Written r [r.x, r.y, r.width, r.height] r.text where
  filled := List.cons_ne_nil _ _
  count := rfl
  describes := rfl
  braces := by
    have first : ∀ x ∈ [r.x, r.y], Scalar.Legible x :=
      fun x hx => legible x (List.mem_append_left [r.width, r.height] hx)
    have second : ∀ x ∈ [r.width, r.height], Scalar.Legible x :=
      fun x hx => legible x (List.mem_append_right [r.x, r.y] hx)
    have origin := filter_braced first
    have size := filter_braced second
    refine ⟨_, toList_braced _, ?_⟩
    rw [filter_members]
    change [',', ' '].intercalate [(braced ([r.x, r.y].map Scalar.render)).toList.filter isInner,
      (braced ([r.width, r.height].map Scalar.render)).toList.filter isInner] = _
    rw [origin, size]
    simp [fields]

/-! ## Reading the row -/

/-- A row of numbers is read back. -/
theorem mapM_fields {numbers : List α} (legible : ∀ x ∈ numbers, Scalar.Legible x) :
    (fields numbers).mapM (fun field => Scalar.read? (α := α) (Text.trim field)) = some numbers := by
  induction numbers with
  | nil => rfl
  | cons x numbers ih =>
    obtain ⟨here, later⟩ := List.forall_mem_cons.mp legible
    have trimmed : Text.trim (Scalar.render x).toList = (Scalar.render x).toList :=
      Text.trimWhile_of_trimmed ((Text.trimmed_of_forall here.plain).of_imp fun c blank => by simp [blank])
    rw [fields, List.map_cons, List.mapM_cons, trimmed, here.read]
    have rest := ih later
    rw [fields] at rest
    simp [rest]

namespace Written

variable {S : Type → Type} [Shape S] {figure : S α} {numbers : List α} {text : String}

theorem head (written : Written figure numbers text) : text.toList.head? = some '\x7b' := by
  obtain ⟨inner, whole, -⟩ := written.braces
  rw [whole]
  rfl

theorem last (written : Written figure numbers text) : text.toList.getLast? = some '\x7d' := by
  obtain ⟨inner, whole, -⟩ := written.braces
  rw [whole, ← List.cons_append]
  exact List.getLast?_concat

/-- A brace at either end is neither a blank nor a quote. -/
theorem trimmed (written : Written figure numbers text) :
    Text.Trimmed (fun c => Text.isBlank c || Text.isQuote c) text.toList where
  head c hc := by
    rw [written.head] at hc
    cases hc
    rfl
  last c hc := by
    rw [written.last] at hc
    cases hc
    rfl

theorem unbraced (written : Written figure numbers text) :
    unbraced? text.toList = some ([',', ' '].intercalate (fields numbers)) := by
  obtain ⟨inner, whole, row⟩ := written.braces
  rw [unbraced?, if_pos ⟨written.head, written.last⟩, whole, ← row]
  change some (('\x7b' :: (inner ++ ['\x7d'])).filter isInner) = _
  rw [List.filter_cons_of_neg (by decide), List.filter_append]
  exact congrArg some (List.append_nil _)

theorem braceComponents (written : Written figure numbers text) (legible : ∀ x ∈ numbers, Scalar.Legible x) :
    braceComponents? text.toList = some numbers := by
  have trimmed : Text.trim text.toList = text.toList :=
    Text.trimWhile_of_trimmed (written.trimmed.of_imp fun c blank => by simp [blank])
  rw [braceComponents?, trimmed, written.unbraced, Option.bind_some]
  obtain ⟨x, rest, rfl⟩ := List.exists_cons_of_ne_nil written.filled
  have commas : ∀ v ∈ (Scalar.render x).toList :: fields rest, ',' ∉ v := by
    intro v hv comma
    obtain ⟨y, hy, rfl⟩ := List.mem_map.mp (show v ∈ fields (x :: rest) from hv)
    exact (Scalar.plain_of_isFigureChar ((legible y hy).isFigureChar ',' comma)).1 rfl
  have read := mapM_fields legible
  rw [fields, List.map_cons, ← fields, List.mapM_cons] at read
  rw [fields, List.map_cons, ← fields, Text.splitWhere_intercalate commas, List.mapM_cons, List.mapM_map]
  -- the blank behind a comma is trimmed away
  have blank : (fun field => Scalar.read? (α := α) (Text.trim field)) ∘ (' ' :: ·) =
      fun field => Scalar.read? (Text.trim field) :=
    funext fun field => congrArg Scalar.read? (Text.trim_blank_cons field)
  rw [blank]
  exact read

theorem parse (written : Written figure numbers text) (legible : ∀ x ∈ numbers, Scalar.Legible x) :
    Shape.parse text = .ok figure := by
  simp only [Shape.parse, written.braceComponents legible, written.count, written.describes, if_true]

/-- Between quotes, the text of a figure is read back by the reader of its type. -/
theorem readFigure (written : Written figure numbers text) (legible : ∀ x ∈ numbers, Scalar.Legible x)
    (type : ValueType) {q : Char} (quote : Text.isQuote q = true) :
    readFigure type (q :: (text.toList ++ [q])) = .ok figure := by
  have black : Text.isBlank q = false := by
    simp only [Text.isQuote, Bool.or_eq_true, beq_iff_eq] at quote
    rcases quote with rfl | rfl <;> rfl
  have last : (q :: (text.toList ++ [q])).getLast? = some q := by
    rw [← List.cons_append]
    exact List.getLast?_concat
  have whole : Text.trim (q :: (text.toList ++ [q])) = q :: (text.toList ++ [q]) := by
    refine Text.trimWhile_of_trimmed ⟨?_, ?_⟩
    · rintro c ⟨⟩
      exact black
    · intro c hc
      rw [last] at hc
      cases hc
      exact black
  have quoted : Text.isQuoted (q :: (text.toList ++ [q])) = true := by
    simp [Text.isQuoted, whole, quote]
  have ends : ∀ c ∈ [q], (Text.isBlank c || Text.isQuote c) = true := by simp [quote]
  have bare : Text.trimQuotes (q :: (text.toList ++ [q])) = text.toList :=
    Text.trimWhile_append written.trimmed ends ends
  rw [Stylebook.readFigure, if_pos quoted, bare, String.ofList_toList, written.parse legible]

end Written

end Stylebook
