import Mathlib.Data.List.Chain
import Mathlib.Logic.Relation
import Stylebook.Proofs.Value.Ends
import Stylebook.Proofs.Variables.References

/-!
# Typed variables

A variable is read as a value of a type in two ways: directly (`Variables.typed?`), or as the text that a reference to
it is expanded to. The direct way expands the value of the variable, where the name of the variable is not pending
and no level of depth is used for it, and takes quotes and blanks off the ends only afterwards.

The name and the level are the two guards of expansion, and a guard that is not needed does not show
(`expandAt_pending`): the name makes no difference if the value does not come back to it, nor does the level if no row
of references is longer than what is left. Then both ways read the same text, but for its ends
(`Variables.typed?_eq_parse`).
-/

set_option autoImplicit false

namespace Stylebook

open Reference Relation

/-- The value of the first variable refers to the second, which has a value too. -/
def Refers (lookup : List Char → Option (List Char)) (a b : List Char) : Prop :=
  ∃ value, lookup a = some value ∧ b ∈ names value ∧ (lookup b).isSome

/-! ## Guards that are not needed -/

/-- The oldest pending name and one level of depth are both guards, and neither shows where it is not needed. The
induction is on the depth; it carries that nothing in the text leads to the name, and that every row of references
that starts in the text and keeps off what is pending is within the depth. -/
theorem expandAt_pending (lookup : List Char → Option (List Char)) (depth : Nat) (pending : List (List Char))
    (oldest raw : List Char)
    (apart : ∀ m ∈ names raw, (lookup m).isSome → ¬ ReflTransGen (Refers lookup) m oldest)
    (short : ∀ m chain, m ∈ names raw → (lookup m).isSome → (m :: chain).IsChain (Refers lookup) →
      (m :: chain).Nodup → (∀ x ∈ m :: chain, x ∉ pending ++ [oldest]) → (m :: chain).length ≤ depth) :
    expandAt lookup depth (pending ++ [oldest]) raw = expandAt lookup (depth + 1) pending raw := by
  induction depth generalizing pending raw with
  | zero =>
    refine replaceReferences_congr _ fun m hm => ?_
    cases found : lookup m with
    | none => simp
    | some value =>
      by_cases old : m ∈ pending
      · simp [old]
      · -- a variable that is still resolved here is a row of one
        have other : m ≠ oldest := fun same => apart m hm (by simp [found]) (same ▸ .refl)
        have row := short m [] hm (by simp [found]) (.singleton m) (by simp) (by simp [old, other])
        exact absurd row (by simp)
  | succ depth ih =>
    refine replaceReferences_congr _ fun m hm => ?_
    cases found : lookup m with
    | none => simp
    | some value =>
      have resolvable : (lookup m).isSome := by simp [found]
      have other : m ≠ oldest := fun same => apart m hm resolvable (same ▸ .refl)
      by_cases old : m ∈ pending
      · simp [old]
      · have deeper := ih (m :: pending) (Text.trimQuotes value) (fun n hn hs within => ?_)
          fun n chain hn hs linked distinct fresh => ?_
        · simp [old, other, ← deeper]
        · rw [names_trimQuotes] at hn
          exact apart m hm resolvable (.head ⟨value, found, hn, hs⟩ within)
        · -- the variable stands in front of every row that starts in its value
          rw [names_trimQuotes] at hn
          have row := short m (n :: chain) hm resolvable (.cons_cons ⟨value, found, hn, hs⟩ linked)
            (List.nodup_cons.mpr ⟨fun h => fresh m h List.mem_cons_self, distinct⟩) fun x hx => by
              rcases List.mem_cons.mp hx with rfl | hx
              · simp [old, other]
              · exact fun h => fresh x hx (List.mem_cons_of_mem _ h)
          exact Nat.le_of_succ_le_succ row

/-! ## The two ways -/

/-- What expansion makes of a text does not depend on the ends of the text, but for its own ends. -/
theorem trimQuotes_expandAt (lookup : List Char → Option (List Char)) (depth : Nat) (pending : List (List Char))
    (cs : List Char) :
    Text.trimQuotes (expandAt lookup depth pending (Text.trimQuotes cs)).1 =
      Text.trimQuotes (expandAt lookup depth pending cs).1 := by
  obtain ⟨front, back, whole, before, behind⟩ := Text.trimWhile_split isEdge cs
  have expanded := expandAt_edges lookup depth pending (Text.trimWhile isEdge cs) before behind
  rw [← whole] at expanded
  rw [expanded]
  exact (Text.trimWhile_edges before behind _).symm

namespace Variables

variable {v : Variables} {sheets : List Sheet} {name value : String}

/-- The reference to a variable is expanded to what its value is, but for the ends, if the value does not lead back to
the variable and no row of references from the variable is longer than `maxDepth`. -/
theorem trimQuotes_expand_reference (named : Lexer.isName name.toList = true)
    (found : v.valueOf? sheets name = some value)
    (acyclic : ¬ TransGen (Refers (v.lookupChars sheets)) name.toList name.toList)
    (short : ∀ chain, (name.toList :: chain).IsChain (Refers (v.lookupChars sheets)) →
      (name.toList :: chain).Nodup → (name.toList :: chain).length ≤ maxDepth) :
    Text.trimQuotes (v.expand sheets ("@" ++ name)).1.toList = Text.trimQuotes (v.expand sheets value).1.toList := by
  obtain ⟨depth, levels⟩ : ∃ depth, maxDepth = depth + 1 := ⟨_, rfl⟩
  rw [levels] at short
  have stored := lookupChars_of_valueOf? named found
  have text : ("@" ++ name).toList = '@' :: name.toList := by simp
  have refers {m : List Char} (hm : m ∈ names (Text.trimQuotes value.toList))
      (hs : (v.lookupChars sheets m).isSome) : Refers (v.lookupChars sheets) name.toList m :=
    ⟨_, stored, by rwa [names_trimQuotes] at hm, hs⟩
  have guards := expandAt_pending (v.lookupChars sheets) depth [] name.toList
    (Text.trimQuotes value.toList) (fun m hm hs back => acyclic (.head' (refers hm hs) back))
    fun m chain hm hs linked distinct fresh => by
      have row := short (m :: chain) (.cons_cons (refers hm hs) linked)
        (List.nodup_cons.mpr ⟨fun h => fresh _ h (by simp), distinct⟩)
      exact Nat.le_of_succ_le_succ row
  have reference : (v.expand sheets ("@" ++ name)).1.toList =
      (expandAt (v.lookupChars sheets) maxDepth [] (Text.trimQuotes value.toList)).1 := by
    rw [expand, text, levels, expandAt_reference _ _ _ (isName_of_isName named) List.not_mem_nil stored, ← guards]
    simp
  have itself : (v.expand sheets value).1.toList =
      (expandAt (v.lookupChars sheets) maxDepth [] value.toList).1 := String.toList_ofList
  rw [reference, itself, trimQuotes_expandAt]

/-- A variable is read as a value of a type as the text is that a reference to it is expanded to, without the quotes
and blanks at its ends. The thirteen readers that make no difference between the two read the text itself so. -/
theorem typed?_eq_parse {α : Type} [Scalar α] [Trigonometric α] (registry : Registry α) (serial : Nat)
    (type : ValueType) (named : Lexer.isName name.toList = true) (found : v.valueOf? sheets name = some value)
    (acyclic : ¬ TransGen (Refers (v.lookupChars sheets)) name.toList name.toList)
    (short : ∀ chain, (name.toList :: chain).IsChain (Refers (v.lookupChars sheets)) →
      (name.toList :: chain).Nodup → (name.toList :: chain).length ≤ maxDepth) :
    let text := (v.expand sheets ("@" ++ name)).1
    v.typed? sheets registry serial name type =
        (registry.parse serial type (String.ofList (Text.trimQuotes text.toList))).toOption ∧
      ∀ usual read, (type, read) ∈ Registry.standardReaders usual → registry.readers.get? type = some read →
        EndsUnseen type text.toList →
          v.typed? sheets registry serial name type = (registry.parse serial type text).toOption := by
  intro text
  have trimmed : v.typed? sheets registry serial name type =
      (registry.parse serial type (String.ofList (Text.trimQuotes text.toList))).toOption := by
    rw [typed?, found, Option.bind_some, trimQuotes_expand_reference named found acyclic short]
  refine ⟨trimmed, fun usual read standard given unseen => ?_⟩
  have same := Registry.parse_trimQuotes standard given serial unseen
  rw [String.ofList_toList] at same
  rw [trimmed, same]

/-- A padding in quotes that refers to a unit with blanks around it. -/
theorem typed?_eq_parse_padding :
    let v : Variables := ⟨.ofList [("pad", "'@unit'"), ("unit", " 4 ")]⟩
    v.typed? [] (Registry.standard : Registry Float) 0 "pad" .number =
      ((Registry.standard : Registry Float).parse 0 .number (v.expand [] "@pad").1).toOption := by
  intro v
  have refers : ∀ a b, Refers (v.lookupChars []) a b → a = "pad".toList ∧ b = "unit".toList := by
    rintro a b ⟨value, found, hb, -⟩
    obtain ⟨raw, stored, rfl⟩ := Option.map_eq_some_iff.mp found
    have entry : (String.ofList a, raw) ∈ [("pad", "'@unit'"), ("unit", " 4 ")] := by
      cases set : v.overrides.get? (String.ofList a) with
      | none => simp [lookup, set] at stored
      | some value =>
        rw [lookup, set] at stored
        cases stored
        exact Table.mem_entries set
    simp only [List.mem_cons, Prod.mk.injEq, List.not_mem_nil, or_false] at entry
    rcases entry with ⟨pad, rfl⟩ | ⟨-, rfl⟩
    · have only : ∀ b ∈ names "'@unit'".toList, b = "unit".toList := by decide +kernel
      exact ⟨by rw [← pad, String.toList_ofList], only b hb⟩
    · have none : names " 4 ".toList = [] := by decide +kernel
      rw [none] at hb
      exact absurd hb List.not_mem_nil
  refine (typed?_eq_parse Registry.standard 0 .number (by decide) (show _ = some "'@unit'" by decide +kernel) ?_ ?_).2
    Font.systemSize _ (by simp [Registry.standardReaders]) rfl (.inl (by decide))
  · intro back
    obtain ⟨b, -, last⟩ := TransGen.tail'_iff.mp back
    exact absurd (refers _ _ last).2 (by decide)
  · rintro (_ | ⟨b, _ | ⟨c, chain⟩⟩) linked -
    · decide
    · simp [maxDepth]
    · -- the unit refers to nothing
      obtain ⟨first, rest⟩ := List.isChain_cons_cons.mp linked
      obtain ⟨second, -⟩ := List.isChain_cons_cons.mp rest
      exact absurd ((refers _ _ first).2.symm.trans (refers _ _ second).1) (by decide)

/-- The two ways differ where the expanded reference has blanks and quotes at its ends, where a variable refers to
itself, and where a row of variables is longer than expansion goes. -/
theorem typed?_ne_parse :
    let registry : Registry Float := .standard
    let padded : Variables := ⟨.ofList [("e", "''"), ("accent", "@e \"#f00\" @e")]⟩
    let looped : Variables := ⟨.ofList [("s", "x @s")]⟩
    let letters := "ABCDEFGHIJKLMNOPQRSTUVWXYZabcdefgh".toList
    let row : Variables :=
      ⟨.ofList (List.zipWith (fun a b => (String.ofList [a], String.ofList ['@', b])) letters letters.tail)⟩
    ((padded.typed? [] registry 0 "accent" .color).isSome ∧
        (registry.parse 0 .color (padded.expand [] "@accent").1).toOption.isNone) ∧
      ((looped.typed? [] registry 0 "s" .string).bind Value.toText? = some "x x @s" ∧
        (registry.parse 0 .string (looped.expand [] "@s").1).toOption.bind Value.toText? = some "x @s") ∧
      ((row.typed? [] registry 0 "A" .string).bind Value.toText? = some "@h" ∧
        (registry.parse 0 .string (row.expand [] "@A").1).toOption.bind Value.toText? = some "@g") := by
  intro registry padded looped letters row
  refine ⟨⟨?_, ?_⟩, ⟨?_, ?_⟩, ?_, ?_⟩ <;> decide +kernel

end Variables

end Stylebook
