import Mathlib.Data.List.TakeWhile
import Stylebook.Text.Quotes

/-!
# Trimming

Trimming is characterized by what it takes away and what it leaves: characters of the class from both ends, and a text
that neither starts nor ends with such a character (`Text.Trimmed`). There is only one way to do that
(`Text.trimWhile_append`), and the facts about trimming twice follow from it.
-/

set_option autoImplicit false

namespace Stylebook.Text

variable {p q : Char → Bool}

/-- The text neither starts nor ends with a character of the class. -/
structure Trimmed (p : Char → Bool) (cs : List Char) : Prop where
  head : ∀ c ∈ cs.head?, p c = false
  last : ∀ c ∈ cs.getLast?, p c = false

theorem trimmed_of_forall {cs : List Char} (none : ∀ c ∈ cs, p c = false) : Trimmed p cs where
  head c hc := none c (List.mem_of_mem_head? hc)
  last c hc := none c (List.mem_of_mem_getLast? hc)

theorem dropWhile_eq_self {cs : List Char} (head : ∀ c ∈ cs.head?, p c = false) : cs.dropWhile p = cs := by
  cases cs with
  | nil => rfl
  | cons c cs => exact List.dropWhile_cons_of_neg (by simp [head c rfl])

theorem dropWhile_append {front cs : List Char} (all : ∀ c ∈ front, p c = true) :
    (front ++ cs).dropWhile p = cs.dropWhile p :=
  List.dropWhile_append_of_pos all

theorem trimEndWhile_append {cs back : List Char} (last : ∀ c ∈ cs.getLast?, p c = false)
    (all : ∀ c ∈ back, p c = true) : trimEndWhile p (cs ++ back) = cs := by
  unfold trimEndWhile
  rw [List.reverse_append, dropWhile_append (by simpa using all), dropWhile_eq_self (by simpa using last),
    List.reverse_reverse]

/-- What is trimmed and stands between characters of the class is what trimming leaves. -/
theorem trimWhile_append {front cs back : List Char} (trimmed : Trimmed p cs) (before : ∀ c ∈ front, p c = true)
    (behind : ∀ c ∈ back, p c = true) : trimWhile p (front ++ (cs ++ back)) = cs := by
  unfold trimWhile
  rw [dropWhile_append before]
  cases cs with
  | nil =>
    rw [List.nil_append, ← List.append_nil back, dropWhile_append behind]
    rfl
  | cons c cs =>
    rw [dropWhile_eq_self (by simpa using trimmed.head), trimEndWhile_append trimmed.last behind]

theorem trimWhile_of_trimmed {cs : List Char} (trimmed : Trimmed p cs) : trimWhile p cs = cs := by
  have whole := trimWhile_append trimmed (List.forall_mem_nil _) (List.forall_mem_nil _)
  rwa [List.nil_append, List.append_nil] at whole

/-- Trimming takes characters of the class away, and what it leaves is trimmed. -/
theorem trimWhile_split (p : Char → Bool) (cs : List Char) :
    ∃ front back, cs = front ++ (trimWhile p cs ++ back) ∧ (∀ c ∈ front, p c = true) ∧ (∀ c ∈ back, p c = true) := by
  refine ⟨cs.takeWhile p, ((cs.dropWhile p).reverse.takeWhile p).reverse, ?_, ?_, ?_⟩
  · unfold trimWhile trimEndWhile
    rw [← List.reverse_append, List.takeWhile_append_dropWhile, List.reverse_reverse,
      List.takeWhile_append_dropWhile]
  · exact fun c hc => List.mem_takeWhile_imp hc
  · exact fun c hc => List.mem_takeWhile_imp (List.mem_reverse.mp hc)

theorem head_dropWhile {cs : List Char} : ∀ c ∈ (cs.dropWhile p).head?, p c = false := by
  induction cs with
  | nil => simp
  | cons d cs ih =>
    cases here : p d with
    | true => simpa [here] using ih
    | false => simp [here]

theorem head_trimEndWhile {cs : List Char} (head : ∀ c ∈ cs.head?, p c = false) :
    ∀ c ∈ (trimEndWhile p cs).head?, p c = false := by
  intro c hc
  have front : trimEndWhile p cs <+: cs := by
    have whole := List.takeWhile_append_dropWhile (p := p) (l := cs.reverse)
    refine ⟨(cs.reverse.takeWhile p).reverse, ?_⟩
    rw [trimEndWhile, ← List.reverse_append, whole, List.reverse_reverse]
  obtain ⟨back, whole⟩ := front
  refine head c ?_
  rw [← whole]
  cases h : trimEndWhile p cs with
  | nil => simp [h] at hc
  | cons d ds => simpa [h] using hc

theorem trimmed_trimWhile (p : Char → Bool) (cs : List Char) : Trimmed p (trimWhile p cs) where
  head := head_trimEndWhile head_dropWhile
  last := by
    unfold trimWhile trimEndWhile
    rw [List.getLast?_reverse]
    exact head_dropWhile

theorem trimWhile_eq_self_iff {cs : List Char} : trimWhile p cs = cs ↔ Trimmed p cs := by
  refine ⟨fun same => ?_, trimWhile_of_trimmed⟩
  rw [← same]
  exact trimmed_trimWhile p cs

theorem Trimmed.of_imp {cs : List Char} (trimmed : Trimmed q cs) (within : ∀ c, p c = true → q c = true) :
    Trimmed p cs := by
  have smaller (c : Char) (h : q c = false) : p c = false := by
    cases hp : p c with
    | false => rfl
    | true => simp [within c hp] at h
  exact ⟨fun c hc => smaller c (trimmed.head c hc), fun c hc => smaller c (trimmed.last c hc)⟩

/-- Characters of the class at the ends make no difference to what trimming leaves. -/
theorem trimWhile_edges {front back : List Char} (before : ∀ c ∈ front, p c = true) (behind : ∀ c ∈ back, p c = true)
    (cs : List Char) : trimWhile p (front ++ (cs ++ back)) = trimWhile p cs := by
  obtain ⟨front', back', inner, before', behind'⟩ := trimWhile_split p cs
  have whole : front ++ (cs ++ back) = (front ++ front') ++ (trimWhile p cs ++ (back' ++ back)) :=
    (congrArg (fun middle => front ++ (middle ++ back)) inner).trans (by simp)
  have all {a b : List Char} (ha : ∀ c ∈ a, p c = true) (hb : ∀ c ∈ b, p c = true) : ∀ c ∈ a ++ b, p c = true :=
    fun c hc => (List.mem_append.mp hc).elim (ha c) (hb c)
  rw [whole, trimWhile_append (trimmed_trimWhile p cs) (all before before') (all behind' behind)]

/-- Trimming a smaller class first makes no difference. -/
theorem trimWhile_trimWhile_of_imp (within : ∀ c, p c = true → q c = true) (cs : List Char) :
    trimWhile q (trimWhile p cs) = trimWhile q cs := by
  obtain ⟨front, back, whole, before, behind⟩ := trimWhile_split p cs
  have same := trimWhile_edges (fun c hc => within c (before c hc)) (fun c hc => within c (behind c hc))
    (trimWhile p cs)
  rw [← whole] at same
  exact same.symm

/-- A text that starts with neither a blank nor a quote is not quoted. -/
theorem not_isQuoted_cons {c : Char} (black : isBlank c = false) (plain : isQuote c = false) (cs : List Char) :
    isQuoted (c :: cs) = false := by
  obtain ⟨front, back, whole, before, -⟩ := trimWhile_split isBlank (c :: cs)
  obtain rfl : front = [] := by
    cases front with
    | nil => rfl
    | cons d front =>
      obtain ⟨rfl, -⟩ := List.cons.inj whole
      simp [black] at before
  unfold isQuoted trim
  cases trimmed : trimWhile isBlank (c :: cs) with
  | nil => rfl
  | cons d rest =>
    rw [trimmed] at whole
    obtain ⟨rfl, -⟩ := List.cons.inj whole
    simp [plain]

theorem length_trimWhile_le (p : Char → Bool) (cs : List Char) : (trimWhile p cs).length ≤ cs.length := by
  obtain ⟨front, back, whole, -⟩ := trimWhile_split p cs
  have length := congrArg List.length whole
  simp only [List.length_append] at length
  omega

theorem trim_blank_cons (cs : List Char) : trim (' ' :: cs) = trim cs := by
  simp [trim, trimWhile, isBlank]

/-! ## Which characters are blank -/

/-- The code points of blanks. -/
def blankPoints : List Nat :=
  List.range' 9 5 ++ List.range' 0x2000 11 ++ [0x20, 0x85, 0xA0, 0x1680, 0x2028, 0x2029, 0x202F, 0x205F, 0x3000]

/-- What holds of all blanks can be found out one by one. -/
theorem mem_blankPoints {c : Char} (blank : isBlank c = true) : c.toNat ∈ blankPoints := by
  simp only [isBlank, Bool.or_eq_true, Bool.and_eq_true, decide_eq_true_eq, beq_iff_eq] at blank
  simp only [blankPoints, List.mem_append, List.mem_range'_1, List.mem_cons, List.not_mem_nil, or_false]
  omega

end Stylebook.Text
