import Stylebook.Proofs.Variables.Segments

/-!
# Variables that refer to each other in a circle

Plain substitution has no result on a circle of variables, and expansion has one: it goes once round the circle and
leaves the reference that closes it. What stands before the references comes in the order of the circle, what stands
behind them in the opposite order, since each value closes only after the one that it refers to
(`Variables.expand_circle`).

Of the two guards of expansion it is the pending names that end the descent. A circle of `maxDepth` variables is the
longest one that the limit of depth leaves alone: its last variable is expanded with no level left, and then the limit
and the pending names both stop at the same reference. What comes out of a longer circle is a result of its own: it is
gone round as far as the limit allows, and the reference that is left is the one that the limit stops at
(`Variables.expand_circle_of_le`).
-/

set_option autoImplicit false

namespace Stylebook

open Reference

/-- The variables `name 0` to `name (k - 1)` refer to each other in a circle. The value of each is the text `front`,
a reference to the next variable, and the text `back`. -/
structure Circle (lookup : List Char → Option (List Char)) (k : Nat) (name front back : Nat → List Char) : Prop where
  pos : 0 < k
  named : ∀ i < k, IsName (name i)
  distinct : ∀ i < k, ∀ j < k, name i = name j → i = j
  values : ∀ i < k, lookup (name i) = some (front i ++ '@' :: (name ((i + 1) % k) ++ back i))
  /-- There are no other references. -/
  plainFront : ∀ i < k, names (front i) = []
  plainBack : ∀ i < k, names (back i) = []
  /-- The names end where the texts behind them begin. -/
  stop : ∀ i < k, ∀ c ∈ (back i).head?, isNameChar c = false
  /-- Neither end of a value is a quote or a blank. -/
  trimmed : ∀ i < k, Text.Trimmed isEdge (front i ++ '@' :: (name ((i + 1) % k) ++ back i))

namespace Circle

variable {lookup : List Char → Option (List Char)} {k : Nat} {name front back : Nat → List Char}

theorem trimQuotes_value (circle : Circle lookup k name front back) {i : Nat} (hi : i < k) :
    Text.trimQuotes (front i ++ '@' :: (name ((i + 1) % k) ++ back i)) =
      front i ++ '@' :: (name ((i + 1) % k) ++ back i) := by
  apply Text.trimWhile_of_trimmed
  exact circle.trimmed i hi

/-- The next `n` variables of the way round, from the variable `i` on, up to where it ends: at the first variable, which
is pending, or where no level of depth is left. The induction is on `n`; it carries that the variables before `i` are
pending and the others are not. -/
theorem expandAt_from (circle : Circle lookup k name front back) (n : Nat) {i depth : Nat}
    {pending : List (List Char)} (within : i + n ≤ k) (levels : n ≤ depth) (ends : i + n = k ∨ n = depth)
    (started : 0 < i → name 0 ∈ pending) (fresh : ∀ j, i ≤ j → j < k → name j ∉ pending) :
    (expandAt lookup depth pending ('@' :: name (i % k))).1 =
      (List.range' i n).flatMap front ++
        '@' :: (name ((i + n) % k) ++ (List.range' i n).reverse.flatMap back) := by
  induction n generalizing i depth pending with
  | zero =>
    have named := circle.named (i % k) (Nat.mod_lt _ circle.pos)
    have left : (expandAt lookup depth pending ('@' :: name (i % k))).1 = '@' :: name (i % k) := by
      rcases ends with round | rfl
      · -- the next variable is the first one
        rw [Nat.add_zero] at round
        subst round
        have first := started circle.pos
        rw [Nat.mod_self] at named ⊢
        rw [expandAt_of_mem_pending _ _ _ named first]
      · simp [expandAt, segments_alone named, replaceReferences]
    simp [left]
  | succ n ih =>
    have hi : i < k := by omega
    obtain ⟨level, rfl⟩ : ∃ level, depth = level + 1 := ⟨depth - 1, by omega⟩
    have nextNamed := circle.named ((i + 1) % k) (Nat.mod_lt _ circle.pos)
    have rest : (expandAt lookup level (name i :: pending) ('@' :: name ((i + 1) % k))).1 =
        (List.range' (i + 1) n).flatMap front ++
          '@' :: (name ((i + 1 + n) % k) ++ (List.range' (i + 1) n).reverse.flatMap back) := by
      apply ih
      · omega
      · omega
      · omega
      · intro _
        by_cases here : i = 0
        · rw [here]
          exact List.mem_cons_self
        · exact List.mem_cons_of_mem _ (started (Nat.pos_of_ne_zero here))
      · intro j hj hjk old
        rcases List.mem_cons.mp old with same | old
        · -- the variables of the circle are distinct
          have := circle.distinct j hjk i hi same
          omega
        · exact fresh j (by omega) hjk old
    rw [Nat.mod_eq_of_lt hi, expandAt_reference _ _ _ (circle.named i hi) (fresh i (Nat.le_refl i) hi)
      (circle.values i hi), circle.trimQuotes_value hi,
      expandAt_around _ _ _ nextNamed (circle.plainFront i hi) (circle.plainBack i hi) (circle.stop i hi), rest,
      List.range'_succ, show i + 1 + n = i + (n + 1) by omega]
    simp

/-- The way round from the first variable on. -/
theorem expandAt_first (circle : Circle lookup k name front back) {n depth : Nat} (within : n ≤ k)
    (levels : n ≤ depth) (ends : n = k ∨ n = depth) (deep : 0 < depth) :
    expandAt lookup depth [] ('@' :: name 0) =
      ((List.range n).flatMap front ++ '@' :: (name (n % k) ++ (List.range n).reverse.flatMap back), true) := by
  have text : (expandAt lookup depth [] ('@' :: name (0 % k))).1 =
      (List.range' 0 n).flatMap front ++ '@' :: (name ((0 + n) % k) ++ (List.range' 0 n).reverse.flatMap back) := by
    apply circle.expandAt_from
    · omega
    · exact levels
    · omega
    · intro none
      exact absurd none (Nat.lt_irrefl 0)
    · intro _ _ _
      exact List.not_mem_nil
  rw [Nat.zero_mod, Nat.zero_add, ← List.range_eq_range'] at text
  refine Prod.ext text ?_
  obtain ⟨level, rfl⟩ : ∃ level, depth = level + 1 := ⟨depth - 1, by omega⟩
  rw [expandAt_reference _ _ _ (circle.named 0 circle.pos) List.not_mem_nil (circle.values 0 circle.pos)]

end Circle

namespace Variables

variable {v : Variables} {sheets : List Sheet} {k : Nat} {name front back : Nat → List Char}

/-- **A circle is gone round once**: the reference to its first variable is expanded to the texts before the
references, from the first variable to the last, then that reference itself, then the texts behind the references,
from the last variable to the first. -/
theorem expand_circle (circle : Circle (v.lookupChars sheets) k name front back) (short : k ≤ maxDepth) :
    v.expand sheets (String.ofList ('@' :: name 0)) =
      (String.ofList ((List.range k).flatMap front ++
        '@' :: (name 0 ++ (List.range k).reverse.flatMap back)), true) := by
  have round := circle.expandAt_first (Nat.le_refl k) short (.inl rfl) (by decide)
  rw [Nat.mod_self] at round
  rw [expand, String.toList_ofList, round]

/-- Three variables in a circle, with text on both sides of the references. -/
theorem expand_circle_three :
    let v : Variables := ⟨.ofList [("top", "1 @side!"), ("side", "2-@all"), ("all", "@top 3")]⟩
    v.expand [] "@top" = ("1 2-@top 3!", true) := by
  intro v
  let name : Nat → List Char := fun i => ["top".toList, "side".toList, "all".toList].getD i []
  let front : Nat → List Char := fun i => ["1 ".toList, "2-".toList, []].getD i []
  let back : Nat → List Char := fun i => ["!".toList, [], " 3".toList].getD i []
  have below : ∀ i < 3, i = 0 ∨ i = 1 ∨ i = 2 := by omega
  have circle : Circle (v.lookupChars []) 3 name front back := by
    refine ⟨by decide, ?_, by decide, by decide +kernel, by decide +kernel, by decide +kernel, ?_, ?_⟩ <;>
      intro i hi <;> rcases below i hi with rfl | rfl | rfl
    -- the names
    · exact isName_of_isName (by decide)
    · exact isName_of_isName (by decide)
    · exact isName_of_isName (by decide)
    -- the texts behind the references
    · rintro c ⟨⟩; decide
    · rintro c ⟨⟩
    · rintro c ⟨⟩; decide
    -- the ends of the values
    all_goals refine ⟨?_, ?_⟩ <;> rintro c ⟨⟩ <;> decide
  have round := expand_circle circle (by decide)
  have start : String.ofList ('@' :: name 0) = "@top" := by decide +kernel
  have whole : String.ofList ((List.range 3).flatMap front ++ '@' :: (name 0 ++ (List.range 3).reverse.flatMap back)) =
      "1 2-@top 3!" := by decide +kernel
  rw [start, whole] at round
  exact round

/-- A circle that is too long for the limit of depth is gone round as far as the limit allows. -/
theorem expand_circle_of_le (circle : Circle (v.lookupChars sheets) k name front back) (long : maxDepth ≤ k) :
    v.expand sheets (String.ofList ('@' :: name 0)) =
      (String.ofList ((List.range maxDepth).flatMap front ++
        '@' :: (name (maxDepth % k) ++ (List.range maxDepth).reverse.flatMap back)), true) := by
  have cut := circle.expandAt_first long (Nat.le_refl maxDepth) (.inr rfl) (by decide)
  rw [expand, String.toList_ofList, cut]

end Variables

end Stylebook
