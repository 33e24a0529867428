import Mathlib.Tactic.NthRewrite
import Stylebook.Proofs.Text.Trimming
import Stylebook.Proofs.Token.Spelling
import Stylebook.Proofs.Variables.Substitution

/-!
# Texts cut into references

What trimming takes off a text holds no references and ends none, so the references of a text are those of its trimmed
text with plain characters at both ends (`segments_edges`). A text without references is expanded to itself, and a
reference that stands alone to the expansion of its value.
-/

set_option autoImplicit false

namespace Stylebook

namespace Reference

/-! ## Classes of characters -/

/-- Quotes and blanks. -/
def isEdge (c : Char) : Bool :=
  Text.isBlank c || Text.isQuote c

theorem isAlphanumeric_of_isAlphanum {c : Char} (h : c.isAlphanum = true) : Text.isAlphanumeric c = true := by
  have below (last : UInt32) (small : last.toNat < 128) (within : c.val ≤ last) : c.toNat < 128 :=
    Nat.lt_of_le_of_lt (UInt32.le_iff_toNat_le.mp within) small
  have ascii : c.toNat < 128 := by
    rcases (Bool.or_eq_true _ _).mp h with alpha | digit
    · rcases (Bool.or_eq_true _ _).mp alpha with upper | lower
      · exact below 'Z'.val (by decide) (of_decide_eq_true upper).2
      · exact below 'z'.val (by decide) (of_decide_eq_true ((Bool.and_eq_true _ _).mp lower).2)
    · exact below '9'.val (by decide) (of_decide_eq_true ((Bool.and_eq_true _ _).mp digit).2)
  rw [Text.isAlphanumeric, if_pos ascii, h]

theorem isNameChar_of_isNameChar {c : Char} (h : Lexer.isNameChar c = true) : isNameChar c = true := by
  simp only [Lexer.isNameChar, Bool.or_eq_true] at h
  simp only [isNameChar, Bool.or_eq_true]
  rcases h with (h | h) | h
  · exact .inl (.inl (isAlphanumeric_of_isAlphanum h))
  · exact .inr h
  · exact .inl (.inr h)

theorem startsName_of_isNameStart {c : Char} (h : Lexer.isNameStart c = true) : startsName c = true := by
  simp only [Lexer.isNameStart, Bool.or_eq_true] at h
  simp only [startsName, Bool.or_eq_true]
  rcases h with h | h
  · exact .inl (isAlphanumeric_of_isAlphanum (by simp [Char.isAlphanum, h]))
  · exact .inr h

theorem isNameChar_of_isEdge {c : Char} (edge : isEdge c = true) : isNameChar c = false ∧ c ≠ '@' := by
  rcases (Bool.or_eq_true _ _).mp edge with blank | quote
  · have all : ∀ n ∈ Text.blankPoints, isNameChar (Char.ofNat n) = false ∧ Char.ofNat n ≠ '@' := by decide +kernel
    simpa using all c.toNat (Text.mem_blankPoints blank)
  · simp only [Text.isQuote, Bool.or_eq_true, beq_iff_eq] at quote
    rcases quote with rfl | rfl <;> decide

theorem plain_of_isEdge {c : Char} (edge : isEdge c = true) : c ≠ '@' ∧ c ≠ '-' ∧ startsName c = false := by
  obtain ⟨name, mark⟩ := isNameChar_of_isEdge edge
  simp only [isNameChar, Bool.or_eq_false_iff, beq_eq_false_iff_ne] at name
  exact ⟨mark, name.1.2, by simp [startsName, name]⟩

/-! ## Segments -/

theorem markLength_of_plain {c : Char} (mark : c ≠ '@') (dash : c ≠ '-') (cs : List Char) :
    markLength (c :: cs) = 0 := by
  unfold markLength
  split
  · rename_i h
    exact absurd (List.cons.inj h).1 mark
  · rename_i h
    exact absurd (List.cons.inj h).1 dash
  · rfl

theorem segments_plain {c : Char} {cs : List Char} (none : markLength (c :: cs) = 0) :
    segments (c :: cs) = .plain c :: segments cs := by
  rw [segments, none]
  rfl

theorem segments_front {front : List Char} (before : ∀ c ∈ front, isEdge c = true) (cs : List Char) :
    segments (front ++ cs) = front.map .plain ++ segments cs := by
  induction front with
  | nil => rfl
  | cons c front ih =>
    obtain ⟨mark, dash, -⟩ := plain_of_isEdge (before c List.mem_cons_self)
    rw [List.cons_append, segments_plain (markLength_of_plain mark dash _),
      ih fun x hx => before x (List.mem_cons_of_mem c hx)]
    rfl

theorem not_startsName_of_stop {c : Char} (stop : isNameChar c = false) : c ≠ '-' ∧ startsName c = false := by
  simp only [isNameChar, Bool.or_eq_false_iff, beq_eq_false_iff_ne] at stop
  exact ⟨stop.1.2, by simp [startsName, stop]⟩

/-- A mark does not reach beyond a character that cannot be in a name. -/
theorem markLength_append {c : Char} {cs back : List Char} (stop : ∀ e ∈ back.head?, isNameChar e = false) :
    markLength (c :: (cs ++ back)) = markLength (c :: cs) := by
  cases back with
  | nil => rw [List.append_nil]
  | cons e back =>
    obtain ⟨dash, start⟩ := not_startsName_of_stop (stop e rfl)
    by_cases mark : c = '@'
    · subst mark
      cases cs with
      | nil => simp [markLength, start]
      | cons d cs => rfl
    by_cases dashes : c = '-'
    · subst dashes
      rcases cs with _ | ⟨d, _ | ⟨d', cs⟩⟩
      · simp [markLength, dash]
      · by_cases second : d = '-' <;> simp [markLength, second, start]
      · by_cases second : d = '-' <;> simp [markLength, second]
    · rw [markLength_of_plain mark dashes, markLength_of_plain mark dashes]

theorem markLength_le (cs : List Char) : markLength cs ≤ cs.length := by
  unfold markLength
  split <;> try split
  all_goals simp

theorem takeWhile_append {p : Char → Bool} {back : List Char} (stop : ∀ c ∈ back.head?, p c = false) (cs : List Char) :
    (cs ++ back).takeWhile p = cs.takeWhile p ∧ (cs ++ back).dropWhile p = cs.dropWhile p ++ back := by
  induction cs with
  | nil =>
    cases back with
    | nil => exact ⟨rfl, rfl⟩
    | cons c back => simp [stop c rfl]
  | cons c cs ih => cases here : p c <;> simp [here, ih]

/-- A text may be cut before any character that cannot be in a name. The induction is on how the front is cut: no
piece of it reaches into what follows. -/
theorem segments_append {back : List Char} (stop : ∀ e ∈ back.head?, isNameChar e = false) (cs : List Char) :
    segments (cs ++ back) = segments cs ++ segments back := by
  fun_induction segments cs with
  | case1 => rfl
  | case2 c cs mark none ih =>
    rw [List.cons_append, segments_plain ((markLength_append stop).trans none), ih]
    rfl
  | case3 c cs mark some name ih =>
    -- the mark lies within the front, and the name ends at the latest where the front does
    obtain ⟨taken, dropped⟩ := takeWhile_append stop name
    have length : mark - 1 ≤ cs.length := by
      have := markLength_le (c :: cs)
      simp only [List.length_cons] at this
      omega
    have here : markLength (c :: (cs ++ back)) = mark := markLength_append stop
    rw [List.cons_append, segments, here, if_neg some]
    simp only [List.drop_append_of_le_length length, List.take_append_of_le_length length]
    rw [show cs.drop (mark - 1) = name from rfl, taken, dropped, ih]
    rfl

/-- Quotes and blanks at the ends of a text stand outside its references. -/
theorem segments_edges {front cs back : List Char} (before : ∀ c ∈ front, isEdge c = true)
    (behind : ∀ c ∈ back, isEdge c = true) :
    segments (front ++ (cs ++ back)) = front.map .plain ++ (segments cs ++ back.map .plain) := by
  have stop : ∀ e ∈ back.head?, isNameChar e = false := by
    intro e he
    exact (isNameChar_of_isEdge (behind e (List.mem_of_mem_head? he))).1
  have plain : segments back = back.map .plain := by
    have whole := segments_front behind []
    rw [List.append_nil] at whole
    simpa [segments] using whole
  rw [segments_front before, segments_append stop, plain]

theorem names_edges (cs : List Char) {front back : List Char} (before : ∀ c ∈ front, isEdge c = true)
    (behind : ∀ c ∈ back, isEdge c = true) : names (front ++ (cs ++ back)) = names cs := by
  have plain (cs : List Char) : (cs.map Segment.plain).filterMap Segment.name? = [] := by
    simp [List.filterMap_map, Function.comp_def, Segment.name?]
  simp only [names, segments_edges before behind, List.filterMap_append, plain, List.nil_append, List.append_nil]

theorem names_trimQuotes (cs : List Char) : names (Text.trimQuotes cs) = names cs := by
  obtain ⟨front, back, whole, before, behind⟩ := Text.trimWhile_split isEdge cs
  have same := names_edges (Text.trimWhile isEdge cs) before behind
  rw [← whole] at same
  exact same.symm

theorem segments_of_names_eq_nil {cs : List Char} (none : names cs = []) : segments cs = cs.map .plain := by
  have plain (ss : List Segment) (none : ss.filterMap Segment.name? = []) :
      ss = (ss.flatMap Segment.chars).map .plain := by
    induction ss with
    | nil => rfl
    | cons s ss ih =>
      cases s with
      | plain c =>
        have rest := ih (by simpa [Segment.name?] using none)
        nth_rewrite 1 [rest]
        simp [Segment.chars]
      | reference mark name => simp [Segment.name?] at none
  have whole := plain (segments cs) none
  rwa [flatMap_segments] at whole

/-- A text that the name of a reference can be. -/
structure IsName (name : List Char) : Prop where
  starts : ∃ c ∈ name.head?, startsName c = true
  all : ∀ c ∈ name, isNameChar c = true

theorem isName_of_isName {name : List Char} (named : Lexer.isName name = true) : IsName name := by
  refine ⟨?_, fun c hc => isNameChar_of_isNameChar (Lexer.isNameChar_of_isName named c hc)⟩
  cases name with
  | nil => cases named
  | cons c cs => exact ⟨c, rfl, startsName_of_isNameStart ((Bool.and_eq_true _ _).mp named).1⟩

/-- The marks of references. -/
def marks : List (List Char) :=
  [['@'], ['-', '-']]

theorem markLength_marked {mark : List Char} {c : Char} (marked : mark ∈ marks) (start : startsName c = true)
    (cs : List Char) : markLength (mark ++ c :: cs) = mark.length := by
  simp only [marks, List.mem_cons, List.not_mem_nil, or_false] at marked
  rcases marked with rfl | rfl <;> exact if_pos start

/-- A mark and a name are one reference, up to a character that cannot be in the name. -/
theorem segments_marked {mark name back : List Char} (marked : mark ∈ marks) (named : IsName name)
    (stop : ∀ e ∈ back.head?, isNameChar e = false) :
    segments (mark ++ (name ++ back)) = .reference mark name :: segments back := by
  obtain ⟨c, hc, start⟩ := named.starts
  cases name with
  | nil => cases hc
  | cons d cs =>
    cases hc
    have length := markLength_marked marked start (cs ++ back)
    obtain ⟨taken, dropped⟩ := takeWhile_append stop (c :: cs)
    rw [List.takeWhile_eq_self_iff.mpr named.all, List.cons_append] at taken
    rw [List.dropWhile_eq_nil_iff.mpr named.all, List.cons_append, List.nil_append] at dropped
    simp only [marks, List.mem_cons, List.not_mem_nil, or_false] at marked
    rcases marked with rfl | rfl
    all_goals
      simp only [List.cons_append, List.nil_append] at length ⊢
      rw [segments, length]
      simp [taken, dropped]

theorem segments_reference {name back : List Char} (named : IsName name)
    (stop : ∀ e ∈ back.head?, isNameChar e = false) :
    segments ('@' :: (name ++ back)) = .reference ['@'] name :: segments back := by
  have marked : ['@'] ∈ marks := List.mem_cons_self
  exact segments_marked marked named stop

theorem segments_alone {name : List Char} (named : IsName name) :
    segments ('@' :: name) = [.reference ['@'] name] := by
  have whole : segments ('@' :: (name ++ [])) = .reference ['@'] name :: segments [] :=
    segments_reference named (by simp)
  rwa [List.append_nil, segments] at whole

end Reference

open Reference

/-! ## Expansion -/

variable (lookup : List Char → Option (List Char)) (depth : Nat) (pending : List (List Char))

/-- The references of a row are replaced one by one, whatever stands around them. -/
theorem replaceReferences_append (resolve : List Char → Option (List Char)) (ss ts : List Segment) :
    replaceReferences resolve (ss ++ ts) =
      ((replaceReferences resolve ss).1 ++ (replaceReferences resolve ts).1,
        (replaceReferences resolve ss).2 || (replaceReferences resolve ts).2) := by
  induction ss with
  | nil => simp [replaceReferences]
  | cons s ss ih =>
    cases s with
    | plain c => simp [replaceReferences, ih]
    | reference mark name =>
      simp only [List.cons_append, replaceReferences, ih]
      cases resolve name <;> simp

theorem replaceReferences_plain (resolve : List Char → Option (List Char)) (cs : List Char) :
    replaceReferences resolve (cs.map .plain) = (cs, false) := by
  induction cs with
  | nil => rfl
  | cons c cs ih => simp [replaceReferences, ih]

/-- What becomes of a row depends on the names in it alone. -/
theorem replaceReferences_congr {resolve resolve' : List Char → Option (List Char)} (ss : List Segment)
    (same : ∀ name ∈ ss.filterMap Segment.name?, resolve name = resolve' name) :
    replaceReferences resolve ss = replaceReferences resolve' ss := by
  induction ss with
  | nil => rfl
  | cons s ss ih =>
    cases s with
    | plain c =>
      have behind := ih fun name h => same name (by simpa [Segment.name?] using h)
      simp only [replaceReferences, behind]
    | reference mark name =>
      have behind := ih fun n h => same n (by simp [Segment.name?, h])
      have here : resolve name = resolve' name := same name (by simp [Segment.name?])
      simp only [replaceReferences, behind, here]

/-- At every depth, expansion replaces the references of the text one by one. -/
theorem exists_expandAt_eq :
    ∃ resolve, ∀ raw, expandAt lookup depth pending raw = replaceReferences resolve (segments raw) := by
  cases depth with
  | zero => exact ⟨_, fun _ => rfl⟩
  | succ depth => exact ⟨_, fun _ => rfl⟩

theorem expandAt_edges (cs : List Char) {front back : List Char} (before : ∀ c ∈ front, isEdge c = true)
    (behind : ∀ c ∈ back, isEdge c = true) :
    (expandAt lookup depth pending (front ++ (cs ++ back))).1 =
      front ++ ((expandAt lookup depth pending cs).1 ++ back) := by
  obtain ⟨resolve, expanded⟩ := exists_expandAt_eq lookup depth pending
  rw [expanded, expanded, segments_edges before behind]
  simp only [replaceReferences_append, replaceReferences_plain]

theorem expandAt_of_names_eq_nil {cs : List Char} (none : names cs = []) :
    expandAt lookup depth pending cs = (cs, false) := by
  obtain ⟨resolve, expanded⟩ := exists_expandAt_eq lookup depth pending
  rw [expanded, segments_of_names_eq_nil none, replaceReferences_plain]

/-- The text around a reference stays as it is, if it has no references of its own. -/
theorem expandAt_around {front name back : List Char} (named : IsName name) (before : names front = [])
    (behind : names back = []) (stop : ∀ e ∈ back.head?, isNameChar e = false) :
    expandAt lookup depth pending (front ++ '@' :: (name ++ back)) =
      (front ++ ((expandAt lookup depth pending ('@' :: name)).1 ++ back),
        (expandAt lookup depth pending ('@' :: name)).2) := by
  obtain ⟨resolve, expanded⟩ := exists_expandAt_eq lookup depth pending
  have mark : ∀ e ∈ ('@' :: (name ++ back)).head?, isNameChar e = false := by
    intro e he
    cases he
    decide
  have around : segments (front ++ '@' :: (name ++ back)) =
      front.map .plain ++ ([.reference ['@'] name] ++ back.map .plain) := by
    rw [segments_append mark, segments_reference named stop, segments_of_names_eq_nil before,
      segments_of_names_eq_nil behind]
    rfl
  rw [expanded, expanded, around, segments_alone named]
  simp only [replaceReferences_append, replaceReferences_plain, Bool.false_or, Bool.or_false]

/-- A reference is left as it is if its variable is pending. -/
theorem expandAt_of_mem_pending {name : List Char} (named : IsName name) (old : name ∈ pending) :
    expandAt lookup depth pending ('@' :: name) = ('@' :: name, false) := by
  cases depth with
  | zero => simp [expandAt, segments_alone named, replaceReferences]
  | succ depth => simp [expandAt, segments_alone named, replaceReferences, old]

/-- A reference that stands alone becomes the expansion of its value, unless it is pending. -/
theorem expandAt_reference {name value : List Char} (named : IsName name) (fresh : name ∉ pending)
    (found : lookup name = some value) :
    expandAt lookup (depth + 1) pending ('@' :: name) =
      ((expandAt lookup depth (name :: pending) (Text.trimQuotes value)).1, true) := by
  rw [expandAt, segments_alone named]
  simp [replaceReferences, found, fresh]

end Stylebook
