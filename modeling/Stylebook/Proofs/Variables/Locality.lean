import Stylebook.Proofs.Variables.Segments

/-!
# Expansion is local

A text is scanned for references from left to right. `Finds` says what such a scan finds, in terms of the text alone:
where no reference starts the scan goes on with the next character, and where one starts, its name is as long as it can
be and the scan goes on behind it. The pieces that a text is cut into have exactly these names (`finds_iff`).

A character that can be neither in a name nor in a mark separates what is on its two sides: no reference reaches across
it, and none comes about by it. So the two sides are expanded each for itself (`expandAt_separated`), at every depth and
whatever is pending. No other character does so for all texts (`Variables.exists_expand_joined`). What expansion says of
a text as a whole, that something was replaced, is that one of the names that the scan finds has a value
(`Variables.expand_local`).
-/

set_option autoImplicit false

namespace Stylebook

namespace Reference

variable {cs : List Char} {found : List (List Char)}

/-! ## What a scan finds -/

/-- A reference starts at the beginning of a text. -/
def Starts (cs : List Char) : Prop :=
  ∃ mark ∈ marks, ∃ c rest, cs = mark ++ c :: rest ∧ startsName c = true

/-- A scan of a text from left to right finds references with some names. -/
inductive Finds : List Char → List (List Char) → Prop where
  | done : Finds [] []
  | skip {c : Char} {cs : List Char} {found : List (List Char)} (none : ¬ Starts (c :: cs)) (behind : Finds cs found) :
      Finds (c :: cs) found
  | reference {mark name rest : List Char} {found : List (List Char)} (marked : mark ∈ marks) (named : IsName name)
      (stop : ∀ c ∈ rest.head?, isNameChar c = false) (behind : Finds rest found) :
      Finds (mark ++ (name ++ rest)) (name :: found)

theorem not_starts_of_markLength (none : markLength cs = 0) : ¬ Starts cs := by
  rintro ⟨mark, marked, c, rest, rfl, start⟩
  rw [markLength_marked marked start] at none
  simp only [marks, List.mem_cons, List.not_mem_nil, or_false] at marked
  rcases marked with rfl | rfl <;> cases none

theorem starts_of_markLength (some : markLength cs ≠ 0) :
    ∃ mark ∈ marks, ∃ c rest, cs = mark ++ c :: rest ∧ startsName c = true ∧ markLength cs = mark.length := by
  unfold markLength at some ⊢
  split at some
  · rename_i c rest
    have start : startsName c = true := by
      by_contra other
      exact some (if_neg other)
    exact ⟨['@'], by decide, c, rest, rfl, start, if_pos start⟩
  · rename_i c rest
    have start : startsName c = true := by
      by_contra other
      exact some (if_neg other)
    exact ⟨['-', '-'], by decide, c, rest, rfl, start, if_pos start⟩
  · exact absurd rfl some

theorem markLength_eq_zero_iff : markLength cs = 0 ↔ ¬ Starts cs := by
  refine ⟨not_starts_of_markLength, fun none => ?_⟩
  by_contra some
  obtain ⟨mark, marked, c, rest, whole, start, -⟩ := starts_of_markLength some
  exact none ⟨mark, marked, c, rest, whole, start⟩

theorem isNameChar_of_startsName {c : Char} (start : startsName c = true) : isNameChar c = true := by
  simp only [startsName, Bool.or_eq_true] at start
  simp only [isNameChar, Bool.or_eq_true]
  rcases start with letter | underscore
  · exact .inl (.inl letter)
  · exact .inr underscore

/-- The scan finds the names of the pieces, by induction on how the text is cut into them. -/
theorem finds_names (cs : List Char) : Finds cs (names cs) := by
  unfold names
  fun_induction segments cs with
  | case1 => exact .done
  | case2 c cs mark none ih => exact .skip (not_starts_of_markLength none) ih
  | case3 c cs mark some behind ih =>
    obtain ⟨front, marked, d, rest, whole, start, length⟩ := starts_of_markLength some
    have named : behind = d :: rest := by
      show cs.drop (mark - 1) = d :: rest
      rw [show mark = front.length from length]
      simp only [marks, List.mem_cons, List.not_mem_nil, or_false] at marked
      rcases marked with rfl | rfl <;> cases whole <;> rfl
    have cut : c :: cs = front ++ (behind.takeWhile isNameChar ++ behind.dropWhile isNameChar) := by
      rw [List.takeWhile_append_dropWhile, named, whole]
    rw [cut]
    refine .reference marked ⟨?_, ?_⟩ ?_ ih
    · rw [named, List.takeWhile_cons_of_pos (isNameChar_of_startsName start)]
      exact ⟨d, rfl, start⟩
    · exact fun e he => List.mem_takeWhile_imp he
    · intro e he
      have ends := List.head?_dropWhile_not isNameChar behind
      rwa [Option.mem_def.mp he] at ends

/-- A scan has one result, by induction on how it came to it. -/
theorem Finds.eq_names (scan : Finds cs found) : found = names cs := by
  induction scan with
  | done => rw [names, segments, List.filterMap_nil]
  | skip none _ ih =>
    rw [ih, names, names, segments_plain (markLength_eq_zero_iff.mpr none)]
    rfl
  | reference marked named stop _ ih =>
    rw [ih, names, names, segments_marked marked named stop]
    rfl

/-- **The names that a scan finds are those of the pieces** that the text is cut into. -/
theorem finds_iff : Finds cs found ↔ found = names cs := by
  refine ⟨Finds.eq_names, ?_⟩
  rintro rfl
  exact finds_names cs

/-! ## Characters that separate -/

/-- A character that can be neither in a name nor in a mark. -/
def Separates (c : Char) : Prop :=
  isNameChar c = false ∧ c ≠ '@'

theorem segments_separated {c : Char} (apart : Separates c) (xs ys : List Char) :
    segments (xs ++ c :: ys) = segments xs ++ .plain c :: segments ys := by
  obtain ⟨stop, mark⟩ := apart
  have front : ∀ e ∈ (c :: ys).head?, isNameChar e = false := by
    intro e he
    cases he
    exact stop
  rw [segments_append front, segments_plain (markLength_of_plain mark (not_startsName_of_stop stop).1 ys)]

end Reference

open Reference

/-! ## Expansion -/

variable (lookup : List Char → Option (List Char)) (depth : Nat) (pending : List (List Char))

/-- What stands on the two sides of a character that separates is expanded each for itself. -/
theorem expandAt_separated {c : Char} (apart : Separates c) (xs ys : List Char) :
    expandAt lookup depth pending (xs ++ c :: ys) =
      ((expandAt lookup depth pending xs).1 ++ c :: (expandAt lookup depth pending ys).1,
        (expandAt lookup depth pending xs).2 || (expandAt lookup depth pending ys).2) := by
  obtain ⟨resolve, expanded⟩ := exists_expandAt_eq lookup depth pending
  rw [expanded, expanded, expanded, segments_separated apart, replaceReferences_append]
  rfl

/-- Something is replaced where one of the names resolves; otherwise the row is written as it was. -/
theorem replaceReferences_snd (resolve : List Char → Option (List Char)) (ss : List Segment) :
    (replaceReferences resolve ss).2 = true ↔ ∃ name ∈ ss.filterMap Segment.name?, (resolve name).isSome := by
  induction ss with
  | nil => simp [replaceReferences]
  | cons s ss ih =>
    cases s with
    | plain c => simpa [replaceReferences, Segment.name?] using ih
    | reference mark name =>
      have first : (Segment.reference mark name :: ss).filterMap Segment.name? = name :: ss.filterMap Segment.name? := rfl
      simp only [first, List.mem_cons, exists_eq_or_imp, ← ih, replaceReferences]
      cases resolve name <;> simp

theorem replaceReferences_of_unchanged {resolve : List Char → Option (List Char)} {ss : List Segment}
    (unchanged : (replaceReferences resolve ss).2 = false) :
    (replaceReferences resolve ss).1 = ss.flatMap Segment.chars := by
  induction ss with
  | nil => rfl
  | cons s ss ih =>
    cases s with
    | plain c => simp_all [replaceReferences, Segment.chars]
    | reference mark name =>
      cases resolved : resolve name with
      | none => simp_all [replaceReferences, Segment.chars]
      | some value => simp [replaceReferences, resolved] at unchanged

/-- Where nothing is pending and a level of depth is left, a name resolves if it has a value. -/
theorem expandAt_snd (raw : List Char) :
    (expandAt lookup (depth + 1) [] raw).2 = true ↔ ∃ name ∈ names raw, (lookup name).isSome := by
  rw [expandAt, replaceReferences_snd]
  simp [names]

theorem expandAt_of_unchanged {raw : List Char} (unchanged : (expandAt lookup depth pending raw).2 = false) :
    (expandAt lookup depth pending raw).1 = raw := by
  obtain ⟨resolve, expanded⟩ := exists_expandAt_eq lookup depth pending
  rw [expanded] at unchanged ⊢
  rw [replaceReferences_of_unchanged unchanged, flatMap_segments]

namespace Variables

/-- No other character separates: an at sign makes a reference of a name, and any other character makes a name
longer. -/
theorem exists_expand_joined {c : Char} (joins : ¬ Separates c) :
    ∃ (v : Variables) (x y : String), v.expand [] (x ++ String.singleton c ++ y) ≠
      ((v.expand [] x).1 ++ String.singleton c ++ (v.expand [] y).1, (v.expand [] x).2 || (v.expand [] y).2) := by
  let v : Variables := ⟨.ofList [("a", "1")]⟩
  by_cases mark : c = '@'
  · subst mark
    exact ⟨v, "", "a", by decide +kernel⟩
  have char : isNameChar c = true := by
    by_contra stop
    exact joins ⟨Bool.eq_false_iff.mpr stop, mark⟩
  refine ⟨v, "@a", "", fun same => ?_⟩
  -- the name that the text refers to is longer than that of the variable
  have longer : names ("@a" ++ String.singleton c ++ "").toList = [['a', c]] := by
    have named : IsName ['a', c] := ⟨⟨'a', rfl, by decide⟩, by simp [char]; decide⟩
    have text : ("@a" ++ String.singleton c ++ "").toList = '@' :: ['a', c] := by simp
    rw [text, names, segments_alone named]
    rfl
  have found : (v.lookupChars [] ['a', c]).isSome = true := by
    have changed := expandAt_snd (v.lookupChars []) (maxDepth - 1) ("@a" ++ String.singleton c ++ "").toList
    rw [longer] at changed
    have short : (v.expand [] "@a").2 = true := by decide +kernel
    have replaced : (v.expand [] ("@a" ++ String.singleton c ++ "")).2 = true := by
      rw [same, short, Bool.true_or]
    simpa using changed.mp replaced
  have other : ("a" : String) ≠ String.ofList ['a', c] := by
    intro equal
    simpa using congrArg String.length equal
  have missing : v.lookupChars [] ['a', c] = none := by
    have override : v.overrides.get? (String.ofList ['a', c]) = if "a" = String.ofList ['a', c] then some "1" else none :=
      Table.get?_insert ..
    rw [if_neg other] at override
    rw [lookupChars, lookup, override]
    rfl
  rw [missing] at found
  cases found

/-- **Expansion is local.** Two texts with a character between them that is neither alphanumeric nor a dash, an
underscore or an at sign are expanded each for itself. And of every text, expansion replaces something exactly if one
of the references that a scan finds has a value; otherwise the text stays as it is. -/
theorem expand_local (v : Variables) (sheets : List Sheet) :
    (∀ (x y : String) (c : Char), Text.isAlphanumeric c = false → c ∉ ['-', '_', '@'] →
      v.expand sheets (x ++ String.singleton c ++ y) =
        ((v.expand sheets x).1 ++ String.singleton c ++ (v.expand sheets y).1,
          (v.expand sheets x).2 || (v.expand sheets y).2)) ∧
    ∀ raw : String, ∃ found, Finds raw.toList found ∧
      ((v.expand sheets raw).2 = true ↔ ∃ name ∈ found, (v.lookup sheets (String.ofList name)).isSome) ∧
      ((v.expand sheets raw).2 = false → (v.expand sheets raw).1 = raw) := by
  constructor
  · intro x y c letter others
    simp only [List.mem_cons, List.not_mem_nil, or_false, not_or] at others
    have apart : Separates c := ⟨by simp [isNameChar, letter, others], others.2.2⟩
    have text : (x ++ String.singleton c ++ y).toList = x.toList ++ c :: y.toList := by simp
    simp only [expand, text, expandAt_separated _ _ _ apart]
    refine Prod.ext (String.toList_injective ?_) rfl
    simp
  · intro raw
    have changed := expandAt_snd (v.lookupChars sheets) (maxDepth - 1) raw.toList
    refine ⟨names raw.toList, finds_names _, ?_, fun unchanged => ?_⟩
    · refine changed.trans ?_
      simp only [lookupChars, Option.isSome_map]
    · have text : (v.expand sheets raw).1 = String.ofList (expandAt (v.lookupChars sheets) maxDepth [] raw.toList).1 :=
        rfl
      rw [text, expandAt_of_unchanged (v.lookupChars sheets) maxDepth [] unchanged, String.ofList_toList]

/-- A comma between two references, one of which has a value. -/
theorem expand_local_comma :
    let v : Variables := ⟨.ofList [("top", "1")]⟩
    Text.isAlphanumeric ',' = false ∧ ',' ∉ ['-', '_', '@'] ∧
      v.expand [] ("@top" ++ String.singleton ',' ++ "--side") =
        ((v.expand [] "@top").1 ++ String.singleton ',' ++ (v.expand [] "--side").1,
          (v.expand [] "@top").2 || (v.expand [] "--side").2) := by
  intro v
  have letter : Text.isAlphanumeric ',' = false := by decide
  have others : ',' ∉ ['-', '_', '@'] := by decide
  exact ⟨letter, others, (expand_local v []).1 "@top" "--side" ',' letter others⟩

end Variables

end Stylebook
