import Stylebook.Variables

/-!
# Expansion is substitution

Plain substitution knows neither a stack of pending variables nor a limit of depth: each reference with a value
becomes the substitution of that value, each other reference stays, and what is put in is not searched again.
On variables that refer to each other in a circle it has no result, so `Substitutes` is a relation: it holds of
a text and what plain substitution makes of it, if that ends.

Expansion has both guards, and where variables do not refer to each other in a circle, neither shows. The
condition is a rank: a number for each variable that decreases from a variable to those its value refers to.
A variable that is pending then has a higher rank than every reference below it, so it cannot come up again; and
a reference at rank `n` needs at most `n` further levels, so ranks below `maxDepth` keep the limit away
(`Variables.substitutes_iff_expand`). The limit is exact: where ranks may reach it, it can show
(`exists_expandAt_ne_substitution`).
-/

set_option autoImplicit false

namespace Stylebook

namespace Reference

/-- The name of a segment that is a reference. -/
def Segment.name? : Segment → Option (List Char)
  | .plain _ => none
  | .reference _ name => some name

/-- The names that a text refers to, from left to right. -/
def names (cs : List Char) : List (List Char) :=
  (segments cs).filterMap Segment.name?

end Reference

open Reference

/-! ## Plain substitution -/

/-- Plain substitution makes the text of some segments into another text. -/
inductive Substitutes (lookup : List Char → Option (List Char)) : List Segment → List Char → Prop where
  | nil : Substitutes lookup [] []
  | plain {c : Char} {rest : List Segment} {out : List Char} (behind : Substitutes lookup rest out) :
      Substitutes lookup (.plain c :: rest) (c :: out)
  | unresolved {mark name : List Char} {rest : List Segment} {out : List Char}
      (missing : lookup name = none) (behind : Substitutes lookup rest out) :
      Substitutes lookup (.reference mark name :: rest) (mark ++ name ++ out)
  | resolved {mark name value inner : List Char} {rest : List Segment} {out : List Char}
      (found : lookup name = some value) (within : Substitutes lookup (segments (Text.trimQuotes value)) inner)
      (behind : Substitutes lookup rest out) :
      Substitutes lookup (.reference mark name :: rest) (inner ++ out)

/-- Plain substitution has at most one result, by induction on how it came to one. -/
theorem Substitutes.unique {lookup : List Char → Option (List Char)} {ss : List Segment} {a b : List Char}
    (ha : Substitutes lookup ss a) (hb : Substitutes lookup ss b) : a = b := by
  induction ha generalizing b with
  | nil => cases hb; rfl
  | plain _ ih =>
    cases hb with
    | plain behind => rw [ih behind]
  | unresolved missing _ ih =>
    cases hb with
    | unresolved _ behind => rw [ih behind]
    | resolved found _ _ =>
      rw [missing] at found
      cases found
  | resolved found _ _ ihWithin ihBehind =>
    cases hb with
    | unresolved missing _ =>
      rw [missing] at found
      cases found
    | resolved found' within behind =>
      rw [found] at found'
      cases found'
      rw [ihWithin within, ihBehind behind]

/-! ## The guards do not show -/

/-- What a resolver has to say of a name so that it does what plain substitution does. -/
def Follows (lookup resolve : List Char → Option (List Char)) (name : List Char) : Prop :=
  match lookup name with
  | none => resolve name = none
  | some value => ∃ inner, resolve name = some inner ∧
      Substitutes lookup (segments (Text.trimQuotes value)) inner

theorem substitutes_replaceReferences {lookup resolve : List Char → Option (List Char)} (ss : List Segment)
    (follows : ∀ name ∈ ss.filterMap Segment.name?, Follows lookup resolve name) :
    Substitutes lookup ss (replaceReferences resolve ss).1 := by
  induction ss with
  | nil => exact .nil
  | cons s rest ih =>
    cases s with
    | plain c => exact .plain (ih fun name h => follows name (by simpa [Segment.name?] using h))
    | reference mark name =>
      have behind := ih fun n h => follows n (by simp [Segment.name?, h])
      have here : Follows lookup resolve name := follows name (by simp [Segment.name?])
      unfold Follows at here
      simp only [replaceReferences]
      cases found : lookup name with
      | none =>
        rw [found] at here
        rw [here]
        exact .unresolved found behind
      | some value =>
        rw [found] at here
        obtain ⟨inner, resolved, within⟩ := here
        rw [resolved]
        exact .resolved found within behind

/-- The induction is on how deep references may still be nested. It carries that the references of the text have
ranks below that depth, and below the ranks of all variables that are pending. -/
theorem substitutes_expandAt {lookup : List Char → Option (List Char)} {rank : List Char → Nat}
    (descends : ∀ name value, lookup name = some value → ∀ n ∈ names (Text.trimQuotes value),
      (lookup n).isSome → rank n < rank name)
    (depth : Nat) (pending : List (List Char)) (raw : List Char)
    (shallow : ∀ n ∈ names raw, (lookup n).isSome → rank n < depth)
    (below : ∀ n ∈ names raw, (lookup n).isSome → ∀ p ∈ pending, rank n < rank p) :
    Substitutes lookup (segments raw) (expandAt lookup depth pending raw).1 := by
  induction depth generalizing pending raw with
  | zero =>
    refine substitutes_replaceReferences _ fun name hname => ?_
    unfold Follows
    cases found : lookup name with
    | none => rfl
    | some value =>
      -- no rank is below zero, so where the depth has run out nothing has a value
      exact absurd (shallow name hname (by simp [found])) (Nat.not_lt_zero _)
  | succ depth ih =>
    refine substitutes_replaceReferences _ fun name hname => ?_
    unfold Follows
    cases found : lookup name with
    | none => simp [found]
    | some value =>
      have resolvable : (lookup name).isSome := by simp [found]
      -- a pending name would have a rank below its own
      have fresh : name ∉ pending := fun hp => Nat.lt_irrefl _ (below name hname resolvable name hp)
      refine ⟨(expandAt lookup depth (name :: pending) (Text.trimQuotes value)).1, by simp [fresh, found], ?_⟩
      refine ih _ _ (fun n hn hs => ?_) fun n hn hs p hp => ?_
      · have descent := descends name value found n hn hs
        have limit := shallow name hname resolvable
        omega
      · have descent := descends name value found n hn hs
        rcases List.mem_cons.mp hp with rfl | hp
        · exact descent
        · exact Nat.lt_trans descent (below name hname resolvable p hp)

/-! ## The limit is exact

Variables named `a`, `aa`, `aaa` and so on, each but the first of which refers to the one before it, need a
further level for each letter. -/

/-- The values of the variables of the chain. -/
def chain (name : List Char) : Option (List Char) :=
  if name = List.replicate name.length 'a' then
    match name.length with
    | 0 => none
    | 1 => some ['x']
    | n + 2 => some ('@' :: List.replicate (n + 1) 'a')
  else none

theorem chain_succ (n : Nat) :
    chain (List.replicate (n + 2) 'a') = some ('@' :: List.replicate (n + 1) 'a') := by
  simp [chain]

theorem chain_eq_some {name value : List Char} (h : chain name = some value) :
    value = ['x'] ∨ ∃ n, name.length = n + 2 ∧ value = '@' :: List.replicate (n + 1) 'a' := by
  unfold chain at h
  split at h
  · split at h
    · cases h
    · cases h
      exact .inl rfl
    · rename_i n hn
      cases h
      exact .inr ⟨n, hn, rfl⟩
  · cases h

theorem segments_at (n : Nat) :
    segments ('@' :: List.replicate (n + 1) 'a') = [.reference ['@'] (List.replicate (n + 1) 'a')] := by
  have mark : markLength ('@' :: List.replicate (n + 1) 'a') = 1 := rfl
  have char : isNameChar 'a' = true := rfl
  rw [segments, mark]
  simp [char, segments]

theorem trimQuotes_at (n : Nat) :
    Text.trimQuotes ('@' :: List.replicate (n + 1) 'a') = '@' :: List.replicate (n + 1) 'a' := by
  have front : (Text.isBlank '@' || Text.isQuote '@') = false := rfl
  have back : (Text.isBlank 'a' || Text.isQuote 'a') = false := rfl
  unfold Text.trimQuotes Text.trimWhile Text.trimEndWhile
  rw [List.dropWhile_cons_of_neg (by simp [front]), List.reverse_cons, List.reverse_replicate,
    List.replicate_succ, List.cons_append, List.dropWhile_cons_of_neg (by simp [back]), ← List.cons_append,
    ← List.replicate_succ, List.reverse_append, List.reverse_replicate]
  rfl

/-- The one reference of a text is put in whole. -/
theorem Substitutes.single {lookup : List Char → Option (List Char)} {mark name value inner : List Char}
    (found : lookup name = some value) (within : Substitutes lookup (segments (Text.trimQuotes value)) inner) :
    Substitutes lookup [.reference mark name] inner := by
  rw [← List.append_nil inner]
  exact .resolved found within .nil

theorem substitutes_chain (n : Nat) :
    Substitutes chain (segments ('@' :: List.replicate (n + 1) 'a')) ['x'] := by
  rw [segments_at]
  induction n with
  | zero =>
    have found : chain ['a'] = some ['x'] := rfl
    refine .single found ?_
    rw [show segments (Text.trimQuotes ['x']) = [.plain 'x'] by cbv]
    exact .plain .nil
  | succ n ih =>
    refine .single (chain_succ n) ?_
    rw [trimQuotes_at, segments_at]
    exact ih

/-- Expansion goes down the chain as far as the depth allows and leaves the last reference. -/
theorem expandAt_chain (depth : Nat) (pending : List (List Char)) (long : ∀ p ∈ pending, depth + 1 < p.length) :
    (expandAt chain depth pending ('@' :: List.replicate (depth + 1) 'a')).1 = ['@', 'a'] := by
  induction depth generalizing pending with
  | zero =>
    unfold expandAt
    rw [segments_at]
    rfl
  | succ depth ih =>
    -- the chain never comes back to a name: those that are pending are all longer
    have fresh : List.replicate (depth + 2) 'a' ∉ pending := fun hp => by
      have := long _ hp
      simp at this
    have deeper := ih (List.replicate (depth + 2) 'a' :: pending) fun p hp => by
      rcases List.mem_cons.mp hp with rfl | hp
      · simp
      · exact Nat.lt_of_succ_lt (long p hp)
    unfold expandAt
    rw [segments_at]
    simp [replaceReferences, fresh, chain_succ, trimQuotes_at, deeper]

/-- At every depth there are variables without a circle, and a text of references of ranks up to that depth,
where expansion stops short of plain substitution. -/
theorem exists_expandAt_ne_substitution (depth : Nat) :
    ∃ (lookup : List Char → Option (List Char)) (rank : List Char → Nat) (raw out : List Char),
      (∀ name value, lookup name = some value → ∀ n ∈ names (Text.trimQuotes value), rank n < rank name) ∧
      (∀ n ∈ names raw, rank n ≤ depth) ∧
      Substitutes lookup (segments raw) out ∧ (expandAt lookup depth [] raw).1 ≠ out := by
  refine ⟨chain, fun n => n.length - 1, '@' :: List.replicate (depth + 1) 'a', ['x'], ?_, ?_, ?_, ?_⟩
  · intro name value found n hn
    rcases chain_eq_some found with rfl | ⟨k, hk, rfl⟩
    · rw [show names (Text.trimQuotes ['x']) = [] by cbv] at hn
      exact absurd hn List.not_mem_nil
    · rw [trimQuotes_at, names, segments_at] at hn
      have : n = List.replicate (k + 1) 'a' := by simpa [Segment.name?] using hn
      subst this
      simp only [List.length_replicate]
      omega
  · intro n hn
    rw [names, segments_at] at hn
    have : n = List.replicate (depth + 1) 'a' := by simpa [Segment.name?] using hn
    subst this
    simp
  · exact substitutes_chain depth
  · rw [expandAt_chain depth [] fun p hp => absurd hp List.not_mem_nil]
    decide

namespace Variables

/-- If the values refer to variables of ever lower rank, and the text to none of a rank from `maxDepth` on, then
expansion and plain substitution have the same result. References without a value may have any rank. -/
theorem substitutes_iff_expand (v : Variables) (sheets : List Sheet) (raw : String) (rank : List Char → Nat)
    (descends : ∀ name value, v.lookupChars sheets name = some value →
      ∀ n ∈ names (Text.trimQuotes value), (v.lookupChars sheets n).isSome → rank n < rank name)
    (shallow : ∀ n ∈ names raw.toList, (v.lookupChars sheets n).isSome → rank n < maxDepth) (out : String) :
    Substitutes (v.lookupChars sheets) (segments raw.toList) out.toList ↔ out = (v.expand sheets raw).1 := by
  have expanded := substitutes_expandAt descends maxDepth [] raw.toList shallow
    fun _ _ _ p hp => absurd hp List.not_mem_nil
  have text : (v.expand sheets raw).1.toList = (expandAt (v.lookupChars sheets) maxDepth [] raw.toList).1 :=
    String.toList_ofList
  rw [← text] at expanded
  constructor
  · intro substituted
    exact String.toList_injective (substituted.unique expanded)
  · rintro rfl
    exact expanded

/-- A variable set at run time that refers twice to one of a sheet, and a reference without a value. -/
theorem substitutes_iff_expand_padding :
    let v : Variables := ⟨.ofList [("pad", "@unit --unit")]⟩
    let sheets : List Sheet := [.of ⟨"mem://units.css"⟩ (Content.empty.define "unit" "'4'")]
    Substitutes (v.lookupChars sheets) (segments "1 @pad @nope".toList) "1 4 4 @nope".toList := by
  intro v sheets
  have values : ∀ name value, v.lookupChars sheets name = some value →
      name = "pad".toList ∧ value = "@unit --unit".toList ∨ value = "'4'".toList := by
    intro name value found
    obtain ⟨raw, hraw, rfl⟩ := Option.map_eq_some_iff.mp found
    have override : v.overrides.get? (String.ofList name)
        = if "pad" = String.ofList name then some "@unit --unit" else none := Table.get?_insert ..
    have defined : (sheets.reverse.findSome? fun s => s.valueOf? (String.ofList name))
        = if "unit" = String.ofList name then some "'4'" else none := by
      have only : (Content.empty.define "unit" "'4'").valueOf? (String.ofList name)
          = if "unit" = String.ofList name then some "'4'" else none := Table.get?_insert ..
      simp only [sheets, List.reverse_singleton, List.findSome?_singleton]
      exact only
    unfold lookup at hraw
    rw [override, defined] at hraw
    by_cases pad : "pad" = String.ofList name
    · rw [if_pos pad] at hraw
      cases hraw
      exact .inl ⟨by rw [pad, String.toList_ofList], rfl⟩
    · rw [if_neg pad] at hraw
      by_cases unit : "unit" = String.ofList name
      · simp only [if_pos unit] at hraw
        cases hraw
        exact .inr rfl
      · simp only [if_neg unit] at hraw
        cases hraw
  refine (substitutes_iff_expand v sheets "1 @pad @nope" (fun n => if n = "pad".toList then 1 else 0) ?_ ?_ _).mpr ?_
  · intro name value found n hn _
    rcases values name value found with ⟨rfl, rfl⟩ | rfl
    · have : ∀ n ∈ names (Text.trimQuotes "@unit --unit".toList), n = "unit".toList := by decide +kernel
      rw [this n hn]
      decide
    · have : names (Text.trimQuotes "'4'".toList) = [] := by decide +kernel
      rw [this] at hn
      exact absurd hn List.not_mem_nil
  · intro n _ _
    show (if n = "pad".toList then 1 else 0) < maxDepth
    split <;> decide
  · decide +kernel

end Variables

end Stylebook
