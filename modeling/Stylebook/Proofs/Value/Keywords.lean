import Mathlib.Data.List.Chain
import Stylebook.Proofs.Content.Balanced
import Stylebook.Proofs.Text.Trimming
import Stylebook.Value.Keywords

/-!
# Keywords and what stands between them

A text of keywords is a row of them with separators around and between. Some keywords are bare and some stand in quotes,
and a separator is needed only where two bare ones would touch. `Layout` is such a row as it is written, and reading it
gives the keywords back, each of them once and in order (`split_layout`).

The reader goes through the text one character at a time and holds the bare keyword that it is in the middle of. That
keyword ends at a separator, at a quote, and at the end of the text, and in all three places it ends alike
(`splitFrom_stop`). A layout can therefore be taken apart from its front, one keyword after the other.

Layouts are all there is to read: a text either leaves a quote open, and then it has no keywords, or is a layout
(`exists_layout`).
-/

set_option autoImplicit false

namespace Stylebook

theorem Text.join_eq_intercalate (between : List Char) (ws : List (List Char)) :
    Text.join between ws = between.intercalate ws := by
  induction ws with
  | nil => rfl
  | cons w ws ih =>
    cases ws with
    | nil => simp [Text.join]
    | cons v ws =>
      rw [Text.join, ih, List.intercalate_cons_cons]
      simp

namespace Keywords

/-- Blanks are separators, so where there are no separators nothing is trimmed. -/
theorem trim_eq_self {text : List Char} (plain : ∀ c ∈ text, isSeparator c = false) : Text.trim text = text := by
  apply Text.trimWhile_of_trimmed
  apply Text.trimmed_of_forall
  intro c hc
  have separator := plain c hc
  simp only [isSeparator, Bool.or_eq_false_iff] at separator
  exact separator.2

/-! ## Keywords as they are written -/

/-- A keyword as it is written: bare, or between two quotes of one kind. -/
inductive Atom where
  | bare (text : List Char) (nonempty : text ≠ [])
    (plain : ∀ c ∈ text, isSeparator c = false ∧ Text.isQuote c = false)
  | quoted (quote : Char) (text : List Char) (mark : Text.isQuote quote = true) (inside : quote ∉ text)

theorem plain_of_all {text : List Char} (all : (text.all fun c => !isSeparator c && !Text.isQuote c) = true) :
    ∀ c ∈ text, isSeparator c = false ∧ Text.isQuote c = false := by
  intro c hc
  simpa using List.all_eq_true.mp all c hc

namespace Atom

/-- The keyword itself, without quotes. -/
def text : Atom → List Char
  | bare text _ _ => text
  | quoted _ text _ _ => text

def chars : Atom → List Char
  | bare text _ _ => text
  | quoted quote text _ _ => quote :: (text ++ [quote])

def isBare : Atom → Bool
  | bare .. => true
  | quoted .. => false

/-- A bare keyword is not blank. -/
theorem trim_text_ne_nil {a : Atom} (bare : a.isBare = true) : Text.trim a.text ≠ [] := by
  cases a with
  | quoted => cases bare
  | bare text nonempty plain =>
    rw [Atom.text, trim_eq_self fun c hc => (plain c hc).1]
    exact nonempty

end Atom

/-- A keyword with the separators in front of it. -/
structure Placed where
  gap : List Char
  atom : Atom
  separators : ∀ c ∈ gap, isSeparator c = true

def Placed.chars (p : Placed) : List Char :=
  p.gap ++ p.atom.chars

/-- The first keyword may stand directly in front of the second. -/
def Placed.Before (p q : Placed) : Prop :=
  p.atom.isBare = true → q.atom.isBare = true → q.gap ≠ []

/-- Keywords with separators in front of them and between them, and behind the last one. Two bare keywords do not
touch. -/
structure Layout where
  placed : List Placed
  last : List Char
  parted : placed.IsChain Placed.Before
  separators : ∀ c ∈ last, isSeparator c = true

namespace Layout

def atoms (l : Layout) : List Atom :=
  l.placed.map (·.atom)

def chars (l : Layout) : List Char :=
  l.placed.flatMap Placed.chars ++ l.last

end Layout

/-! ## Steps of the reader -/

theorem isQuote_of_isSeparator {c : Char} (separator : isSeparator c = true) : Text.isQuote c = false := by
  cases quote : Text.isQuote c with
  | false => rfl
  | true =>
    simp only [Text.isQuote, Bool.or_eq_true, beq_iff_eq] at quote
    rcases quote with rfl | rfl <;> cases separator

theorem isSeparator_of_isBlank {c : Char} (blank : Text.isBlank c = true) : isSeparator c = true := by
  simp [isSeparator, blank]

theorem splitFrom_separator {c : Char} (separator : isSeparator c = true) (current cs : List Char) :
    splitFrom none current (c :: cs) = (splitFrom none [] cs).map (flush current) := by
  rw [splitFrom]
  simp [separator, isQuote_of_isSeparator separator]

/-- Where no keyword was begun, separators are passed over. -/
theorem splitFrom_gap {gap : List Char} (separators : ∀ c ∈ gap, isSeparator c = true) (cs : List Char) :
    splitFrom none [] (gap ++ cs) = splitFrom none [] cs := by
  induction gap with
  | nil => rfl
  | cons c gap ih =>
    rw [List.cons_append, splitFrom_separator (separators c List.mem_cons_self),
      ih fun x hx => separators x (List.mem_cons_of_mem c hx)]
    exact congrFun Option.map_id _

/-- A keyword that was begun ends at a separator and at a quote as it does at the end of the text. -/
theorem splitFrom_stop {rest : List Char} (stop : ∀ c ∈ rest.head?, isSeparator c = true ∨ Text.isQuote c = true)
    (current : List Char) : splitFrom none current rest = (splitFrom none [] rest).map (flush current) := by
  have through (ks : Option (List (List Char))) :
      ks.map (flush current) = (ks.map (flush [])).map (flush current) := by
    cases ks <;> rfl
  cases rest with
  | nil => rfl
  | cons c rest =>
    rcases stop c rfl with separator | quote
    · rw [splitFrom_separator separator, splitFrom_separator separator]
      exact through _
    · rw [splitFrom, if_pos quote, splitFrom, if_pos quote]
      exact through _

theorem splitFrom_bare {text : List Char} (plain : ∀ c ∈ text, isSeparator c = false ∧ Text.isQuote c = false)
    (current rest : List Char) :
    splitFrom none current (text ++ rest) = splitFrom none (text.reverse ++ current) rest := by
  induction text generalizing current with
  | nil => rfl
  | cons c text ih =>
    obtain ⟨separator, quote⟩ := plain c List.mem_cons_self
    have behind := ih (fun x hx => plain x (List.mem_cons_of_mem c hx)) (c :: current)
    rw [List.cons_append, splitFrom]
    simp [separator, quote, behind]

theorem splitFrom_closed {q : Char} {text : List Char} (inside : q ∉ text) (current rest : List Char) :
    splitFrom (some q) current (text ++ q :: rest) =
      (splitFrom none [] rest).map ((current.reverse ++ text) :: ·) := by
  induction text generalizing current with
  | nil => simp [splitFrom]
  | cons c text ih =>
    have other : c ≠ q := fun same => inside (same ▸ List.mem_cons_self)
    have behind := ih (fun h => inside (List.mem_cons_of_mem c h)) (c :: current)
    rw [List.cons_append, splitFrom, if_neg other, behind]
    simp

theorem splitFrom_quoted {q : Char} {text : List Char} (mark : Text.isQuote q = true) (inside : q ∉ text)
    (rest : List Char) : splitFrom none [] (q :: (text ++ q :: rest)) = (splitFrom none [] rest).map (text :: ·) := by
  rw [splitFrom, if_pos mark, splitFrom_closed inside, Option.map_map]
  rfl

/-! ## Layouts -/

/-- What follows a bare keyword ends it. -/
theorem stops_placed {p : Placed} (bare : p.atom.isBare = true) {placed : List Placed}
    (parted : (p :: placed).IsChain Placed.Before) {last : List Char} (separators : ∀ c ∈ last, isSeparator c = true) :
    ∀ c ∈ (placed.flatMap Placed.chars ++ last).head?, isSeparator c = true ∨ Text.isQuote c = true := by
  cases placed with
  | nil =>
    intro c hc
    exact .inl (separators c (List.mem_of_mem_head? hc))
  | cons q placed =>
    have before := (List.isChain_cons_cons.mp parted).1 bare
    obtain ⟨gap, atom, within⟩ := q
    cases gap with
    | cons d gap =>
      intro c hc
      obtain rfl : d = c := Option.some.inj hc
      exact .inl (within d List.mem_cons_self)
    | nil =>
      cases atom with
      | bare => exact absurd rfl (before rfl)
      | quoted quote text mark inside =>
        intro c hc
        obtain rfl : quote = c := Option.some.inj hc
        exact .inr mark

/-- The keywords of a row are found, each of them once and in order. -/
theorem splitFrom_placed {placed : List Placed} (parted : placed.IsChain Placed.Before) {last : List Char}
    (separators : ∀ c ∈ last, isSeparator c = true) :
    splitFrom none [] (placed.flatMap Placed.chars ++ last) = some (placed.map (·.atom.text)) := by
  induction placed with
  | nil =>
    have gap := splitFrom_gap separators []
    rw [List.append_nil] at gap
    exact gap
  | cons p placed ih =>
    have behind := ih parted.tail
    rw [List.flatMap_cons, Placed.chars, List.append_assoc, List.append_assoc, splitFrom_gap p.separators]
    cases atom : p.atom with
    | quoted quote text mark inside =>
      rw [Atom.chars, List.cons_append, List.append_assoc, List.singleton_append, splitFrom_quoted mark inside, behind]
      simp [atom, Atom.text]
    | bare text nonempty plain =>
      rw [Atom.chars, splitFrom_bare plain, splitFrom_stop (stops_placed (by rw [atom]; rfl) parted separators), behind]
      simp [atom, Atom.text, flush, nonempty]

/-- The keywords of a layout, blank ones left out. Only those in quotes can be blank. -/
theorem split_layout (l : Layout) :
    split l.chars = some ((l.atoms.map Atom.text).filter fun k => !(Text.trim k).isEmpty) := by
  rw [split, Layout.chars, splitFrom_placed l.parted l.separators, Layout.atoms, List.map_map]
  rfl

/-- No keyword is left out if those in quotes are not blank. -/
theorem split_layout_visible {l : Layout} (visible : ∀ a ∈ l.atoms, a.isBare = false → Text.trim a.text ≠ []) :
    split l.chars = some (l.atoms.map Atom.text) := by
  rw [split_layout]
  apply congrArg some
  apply List.filter_eq_self.mpr
  intro k hk
  obtain ⟨a, ha, rfl⟩ := List.mem_map.mp hk
  have shown : Text.trim a.text ≠ [] := by
    cases bare : a.isBare with
    | true => exact Atom.trim_text_ne_nil bare
    | false => exact visible a ha bare
  simpa using shown

/-! ## Quotes that are left open -/

theorem splitFrom_eq_none_iff {quote : Option Char} {current cs : List Char} :
    splitFrom quote current cs = none ↔ cs.foldl quoteAfter quote ≠ none := by
  induction cs generalizing quote current with
  | nil => cases quote <;> simp [splitFrom]
  | cons c cs ih =>
    rw [List.foldl_cons]
    cases quote with
    | some q =>
      by_cases closed : c = q
      · rw [splitFrom, if_pos closed, Option.map_eq_none_iff, ih, quoteAfter, if_pos closed]
      · rw [splitFrom, if_neg closed, ih, quoteAfter, if_neg closed]
    | none =>
      cases mark : Text.isQuote c with
      | true => rw [splitFrom, if_pos mark, Option.map_eq_none_iff, ih, quoteAfter_of_isQuote mark]
      | false =>
        rw [splitFrom, mark, quoteAfter_of_not_isQuote mark]
        split
        · contradiction
        · split
          · rw [Option.map_eq_none_iff, ih]
          · exact ih

/-! ## Every text without open quotes is a layout -/

theorem exists_layout_separator {c : Char} (separator : isSeparator c = true) (l : Layout) :
    ∃ l' : Layout, l'.chars = c :: l.chars := by
  obtain ⟨placed, last, parted, separators⟩ := l
  cases placed with
  | nil => exact ⟨⟨[], c :: last, .nil, List.forall_mem_cons.mpr ⟨separator, separators⟩⟩, rfl⟩
  | cons p placed =>
    -- the separator joins those in front of the first keyword
    let p' : Placed := ⟨c :: p.gap, p.atom, List.forall_mem_cons.mpr ⟨separator, p.separators⟩⟩
    obtain ⟨before, behind⟩ := List.isChain_cons.mp parted
    exact ⟨⟨p' :: placed, last, List.isChain_cons.mpr ⟨before, behind⟩, separators⟩, rfl⟩

theorem exists_layout_plain {c : Char} (separator : isSeparator c = false) (quote : Text.isQuote c = false)
    (l : Layout) : ∃ l' : Layout, l'.chars = c :: l.chars := by
  obtain ⟨placed, last, parted, separators⟩ := l
  by_cases touches : ∃ p ∈ placed.head?, p.atom.isBare = true ∧ p.gap = []
  · -- the character starts the bare keyword that follows
    obtain ⟨⟨gap, atom, within⟩, first, bare, empty⟩ := touches
    obtain rfl : gap = [] := empty
    obtain ⟨rest, rfl⟩ := List.head?_eq_some_iff.mp first
    cases atom with
    | quoted => cases bare
    | bare text nonempty plain =>
      let longer : Atom :=
        .bare (c :: text) (List.cons_ne_nil c text) (List.forall_mem_cons.mpr ⟨⟨separator, quote⟩, plain⟩)
      obtain ⟨before, behind⟩ := List.isChain_cons.mp parted
      exact ⟨⟨⟨[], longer, within⟩ :: rest, last, List.isChain_cons.mpr ⟨before, behind⟩, separators⟩, rfl⟩
  · let alone : Atom := .bare [c] (List.cons_ne_nil c []) (by simp [separator, quote])
    refine ⟨⟨⟨[], alone, by simp⟩ :: placed, last, List.isChain_cons.mpr ⟨?_, parted⟩, separators⟩, rfl⟩
    intro p first _ bare empty
    exact touches ⟨p, first, bare, empty⟩

theorem exists_layout_quoted {q : Char} {text : List Char} (mark : Text.isQuote q = true) (inside : q ∉ text)
    (l : Layout) : ∃ l' : Layout, l'.chars = q :: (text ++ q :: l.chars) := by
  let first : Placed := ⟨[], .quoted q text mark inside, by simp⟩
  have parted : (first :: l.placed).IsChain Placed.Before := by
    apply List.isChain_cons.mpr
    refine ⟨?_, l.parted⟩
    intro p _ bare
    cases bare
  refine ⟨⟨first :: l.placed, l.last, parted, l.separators⟩, ?_⟩
  simp [Layout.chars, first, Placed.chars, Atom.chars]

/-- A text that leaves no quote open is a layout. -/
theorem exists_layout {cs : List Char} (closed : Balanced cs) : ∃ l : Layout, l.chars = cs := by
  induction length : cs.length using Nat.strong_induction_on generalizing cs with
  | _ n ih =>
    subst length
    cases cs with
    | nil => exact ⟨⟨[], [], .nil, by simp⟩, rfl⟩
    | cons c cs =>
      cases quote : Text.isQuote c with
      | true =>
        obtain ⟨text, rest, rfl, inside, closed⟩ := closed.quotation quote
        obtain ⟨l, rfl⟩ := ih _ (by simp; omega) closed rfl
        exact exists_layout_quoted quote inside l
      | false =>
        have plain : ∀ d ∈ [c], Text.isQuote d = false := by simpa using quote
        have closed : Balanced cs := (balanced_append_of_plain plain).mp closed
        obtain ⟨l, rfl⟩ := ih _ (by simp) closed rfl
        cases separator : isSeparator c with
        | true => exact exists_layout_separator separator l
        | false => exact exists_layout_plain separator quote l

end Keywords

open Keywords in
/-- **Keywords are split exactly at their separators.** A layout whose quoted keywords are not blank is read as its
keywords with single blanks between them, and refused if there are none. A text that leaves a quote open is refused, and
any other text is a layout. -/
theorem readKeywords_chars {α : Type} (type : ValueType) :
    (∀ l : Layout, (∀ a ∈ l.atoms, a.isBare = false → Text.trim a.text ≠ []) →
      (l.atoms ≠ [] → (readKeywords type l.chars : Except ValueError (Value α)) =
        .ok (.keywords (String.ofList ([' '].intercalate (l.atoms.map Atom.text))))) ∧
      (l.atoms = [] → (readKeywords type l.chars : Except ValueError (Value α)) =
        .error (.invalid type .noKeyword))) ∧
    (∀ raw : List Char, raw.foldl quoteAfter none ≠ none →
      (readKeywords type raw : Except ValueError (Value α)) = .error (.invalid type .unterminatedKeyword)) ∧
    ∀ raw : List Char, raw.foldl quoteAfter none = none → ∃ l : Layout, l.chars = raw := by
  refine ⟨?_, ?_, ?_⟩
  · intro l visible
    unfold readKeywords
    rw [split_layout_visible visible]
    cases l.atoms with
    | nil => simp
    | cons a atoms => simp [Text.join_eq_intercalate]
  · intro raw opened
    have none : split raw = none := by rw [split, splitFrom_eq_none_iff.mpr opened, Option.map_none]
    unfold readKeywords
    rw [none]
  · intro raw closed
    exact exists_layout closed

open Keywords in
/-- A quoted keyword with separators and the other quote in it, between two bare ones that touch it. -/
theorem readKeywords_chars_touching :
    (readKeywords .keywords "|a\"b, 'c\"d '|',".toList : Except ValueError (Value Rat)) =
      .ok (.keywords "a b, 'c d |") ∧
    (readKeywords .keywords ",| ".toList : Except ValueError (Value Rat)) = .error (.invalid .keywords .noKeyword) ∧
    (readKeywords .keywords "a 'b".toList : Except ValueError (Value Rat)) =
      .error (.invalid .keywords .unterminatedKeyword) := by
  obtain ⟨reads, refuses, -⟩ := readKeywords_chars (α := Rat) .keywords
  refine ⟨?_, ?_, ?_⟩
  · let placed : List Placed :=
      [⟨['|'], .bare ['a'] (by decide) (plain_of_all rfl), List.all_eq_true.mp rfl⟩,
        ⟨[], .quoted '"' ['b', ',', ' ', '\'', 'c'] rfl (by decide), List.forall_mem_nil _⟩,
        ⟨[], .bare ['d'] (by decide) (plain_of_all rfl), List.forall_mem_nil _⟩,
        ⟨[' '], .quoted '\'' ['|'] rfl (by decide), List.all_eq_true.mp rfl⟩]
    have parted : placed.IsChain Placed.Before := by simp [placed, Placed.Before, Atom.isBare]
    have visible : ∀ a ∈ placed.map (·.atom), a.isBare = false → Text.trim a.text ≠ [] := by
      simp [placed, Atom.isBare, Atom.text]
      decide
    exact (reads ⟨placed, [','], parted, List.all_eq_true.mp rfl⟩ visible).1 (by simp [Layout.atoms, placed])
  · exact (reads ⟨[], [',', '|', ' '], .nil, List.all_eq_true.mp rfl⟩ (by simp [Layout.atoms])).2 rfl
  · exact refuses _ (by decide)

end Stylebook
