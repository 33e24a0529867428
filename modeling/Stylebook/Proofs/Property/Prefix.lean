import Mathlib.Data.List.Basic
import Stylebook.Property.KeywordTable
import Stylebook.Proofs.Text.Seam
import Stylebook.Proofs.Text.Trimming

/-!
# Keywords behind the base name

A keyword may carry the base name of its table in front. The table brings the base name, its keywords and the text that
is looked up to lower case one by one, and then takes the base name off the front of the text. So a keyword behind the
base name is the keyword alone wherever the lower case of the two together is that of the two apart, and a sigma next to
the seam is all that can keep them from it, in any script (`Text.seamless`).

If one does, the base name is not found in front of the text, or what is left behind it is the keyword with another
sigma (`lookup?_withBase`). Then the keyword is not found through its base name, although it is in the table.
-/

set_option autoImplicit false

namespace Stylebook.KeywordTable

/-- The number of the last entry whose keyword is `key` in lower case. -/
def lastOf? (entries : List (String × Int64)) (key : String) : Option Int64 :=
  (entries.reverse.find? fun e => fold e.1 = key).map (·.2)

/-- Lower case of a keyword as it stands behind a base name. -/
def foldBehind (base keyword : String) : String :=
  String.ofList (Text.lowerAfter base.toList.reverse keyword.toList)

theorem get?_values (entries : List (String × Int64)) (fallback : Int64) (key : String) :
    (ofList entries fallback).values.get? key = lastOf? entries key := by
  rw [ofList, Table.get?_ofList, ← List.map_reverse, List.find?_map, Option.map_map, lastOf?]
  rfl

/-- Each keyword that was given to the table has a number. -/
theorem exists_lastOf? {entries : List (String × Int64)} {keyword : String} (given : keyword ∈ entries.map (·.1)) :
    ∃ v, lastOf? entries (fold keyword) = some v := by
  obtain ⟨e, mem, rfl⟩ := List.mem_map.mp given
  have found : (entries.reverse.find? fun e' => fold e'.1 = fold e.1).isSome := by
    rw [List.find?_isSome]
    exact ⟨e, List.mem_reverse.mpr mem, decide_eq_true rfl⟩
  obtain ⟨last, eq⟩ := Option.isSome_iff_exists.mp found
  exact ⟨last.2, by rw [lastOf?, eq, Option.map_some]⟩

/-! ## Looking up a text without blanks at its ends -/

variable {t : KeywordTable} {s : String}

theorem lookup?_of_known (trimmed : Text.Trimmed Text.isBlank s.toList) {v : Int64}
    (known : t.values.get? (fold s) = some v) : t.lookup? s = some v := by
  rw [fold] at known
  rw [lookup?, Text.trim, Text.trimWhile_of_trimmed trimmed, known]

theorem lookup?_of_unknown (trimmed : Text.Trimmed Text.isBlank s.toList) (unknown : t.values.get? (fold s) = none) :
    t.lookup? s = (t.withoutBase? (Text.lower s.toList)).bind fun bare => t.values.get? (String.ofList bare) := by
  rw [fold] at unknown
  rw [lookup?, Text.trim, Text.trimWhile_of_trimmed trimmed, unknown]

/-- A text behind a base name has no blanks at its ends if there is none in front of the base name and at the end of
the text. -/
theorem trimmed_append {base keyword : List Char} (front : ∀ c ∈ base.head?, Text.isBlank c = false)
    (nonempty : keyword ≠ []) (trimmed : Text.Trimmed Text.isBlank keyword) :
    Text.Trimmed Text.isBlank (base ++ keyword) where
  head := by
    cases base with
    | nil => exact trimmed.head
    | cons c base => exact front
  last := by
    have some : keyword.getLast? = some (keyword.getLast nonempty) := List.getLast?_eq_some_getLast nonempty
    rw [List.getLast?_append, some, Option.some_or, ← some]
    exact trimmed.last

theorem front_of_head? {base : String} {first : Char} (head : base.toList.head? = some first)
    (plain : Text.isBlank first = false) : ∀ c ∈ base.toList.head?, Text.isBlank c = false := by
  intro c mem
  rw [head] at mem
  rwa [← Option.mem_some.mp mem]

/-- The base name is taken off unless it ends in a sigma that is final in it and not in front of the keyword. -/
theorem withoutBase?_append (t : KeywordTable) (base : String) (keyword : List Char) :
    (t.withBase base).withoutBase? (Text.lower (base.toList ++ keyword)) =
      if Text.sigmaLeads true base.toList.reverse && Text.startsCased keyword then none
      else some (Text.lowerAfter base.toList.reverse keyword) := by
  have small : (t.withBase base).withoutBase? (Text.lower (base.toList ++ keyword)) =
      (Text.lower base.toList).isPrefixOf? (Text.lower (base.toList ++ keyword)) := by
    simp [withoutBase?, withBase, fold]
  rw [small, Text.lower_append]
  split
  · rename_i changed
    rw [Option.eq_none_iff_forall_ne_some]
    intro rest found
    have whole := List.append_eq_of_isPrefixOf?_eq_some found
    have length : (Text.lower base.toList).length = (Text.lowerBetween [] base.toList keyword).length := by
      rw [Text.lower, ← Text.lowerBetween_nil]
      exact Text.length_lowerBetween ..
    have same := (Text.lowerBetween_eq_lower_iff base.toList keyword).mp (List.append_inj_left whole length).symm
    rw [changed] at same
    cases same
  · rename_i kept
    rw [(Text.lowerBetween_eq_lower_iff base.toList keyword).mpr (Bool.eq_false_iff.mpr kept)]
    exact List.isPrefixOf?_eq_some_iff_append_eq.mpr rfl

/-- What is found through the base name. -/
theorem lookup?_withBase {base keyword : String} (trimmed : Text.Trimmed Text.isBlank (base ++ keyword).toList)
    (unknown : t.values.get? (fold (base ++ keyword)) = none) :
    (t.withBase base).lookup? (base ++ keyword) =
      if Text.sigmaLeads true base.toList.reverse && Text.startsCased keyword.toList then none
      else t.values.get? (foldBehind base keyword) := by
  have unknown' : (t.withBase base).values.get? (fold (base ++ keyword)) = none := unknown
  rw [lookup?_of_unknown trimmed unknown', String.toList_append, withoutBase?_append]
  split <;> rfl

/-! ## Keywords of the table -/

/-- **The base name in front of a keyword.** A keyword that was given to a table is found alone, with the number of the
last entry of that keyword. Behind the base name, if that is not a keyword itself, it is found as it is alone where no
sigma stands at the seam; where one does, it is found only as another keyword, whose lower case has another sigma. -/
theorem lookup?_prefixed (entries : List (String × Int64)) (fallback : Int64) {base keyword : String}
    (given : keyword ∈ entries.map (·.1)) (nonempty : keyword ≠ "")
    (trimmed : Text.Trimmed Text.isBlank keyword.toList) (front : ∀ c ∈ base.toList.head?, Text.isBlank c = false)
    (unknown : (ofList entries fallback).values.contains (fold (base ++ keyword)) = false) :
    let t := (ofList entries fallback).withBase base
    (∃ v, t.lookup? keyword = some v ∧ lastOf? entries (fold keyword) = some v) ∧
    (Text.seamless base.toList keyword.toList = true → t.lookup? (base ++ keyword) = t.lookup? keyword) ∧
    (Text.seamless base.toList keyword.toList = false → ∀ v, t.lookup? (base ++ keyword) = some v →
      foldBehind base keyword ≠ fold keyword ∧ lastOf? entries (foldBehind base keyword) = some v) := by
  intro t
  obtain ⟨v, last⟩ := exists_lastOf? given
  have alone : t.lookup? keyword = some v := lookup?_of_known trimmed ((get?_values entries fallback _).trans last)
  have whole : Text.Trimmed Text.isBlank (base ++ keyword).toList := by
    rw [String.toList_append]
    exact trimmed_append front (fun none => nonempty (String.toList_eq_nil_iff.mp none)) trimmed
  have none : (ofList entries fallback).values.get? (fold (base ++ keyword)) = none := by
    rw [← Option.not_isSome_iff_eq_none]
    exact Bool.eq_false_iff.mp unknown
  have behind := lookup?_withBase whole none
  rw [get?_values] at behind
  have shown : foldBehind base keyword = fold keyword ↔
      (Text.startsCased base.toList.reverse && Text.sigmaLeads false keyword.toList) = false := by
    rw [← Text.lowerAfter_eq_lower_iff, foldBehind, fold, String.ofList_inj]
  refine ⟨⟨v, alone, last⟩, fun seamless => ?_, fun seam u found => ?_⟩
  · simp only [Text.seamless, Bool.and_eq_true, Bool.not_eq_true'] at seamless
    rw [behind, if_neg (Bool.eq_false_iff.mp seamless.1), shown.mpr seamless.2, last, alone]
  · rw [behind] at found
    split at found
    · cases found
    · rename_i kept
      refine ⟨fun same => ?_, found⟩
      rw [Text.seamless, Bool.eq_false_iff.mpr kept, shown.mp same] at seam
      cases seam

/-- Greek keywords behind a Greek base name, where both hold sigmas and a dash stands between. The last entry counts. -/
theorem lookup?_prefixed_odos :
    let entries : List (String × Int64) := [("ΟΔΌΣ", 1), ("ΣΆΣ", 2), ("οδός", 3)]
    let t := (ofList entries 0).withBase "ΤΗΣ-"
    (Text.seamless "ΤΗΣ-".toList "ΟΔΌΣ".toList = true ∧ t.lookup? "ΤΗΣ-ΟΔΌΣ" = some 3) ∧
      Text.seamless "ΤΗΣ".toList "ΟΔΌΣ".toList = false ∧
        ∀ v, ((ofList entries 0).withBase "ΤΗΣ").lookup? "ΤΗΣΟΔΌΣ" ≠ some v := by
  intro entries t
  have given : "ΟΔΌΣ" ∈ entries.map (·.1) := by decide
  have trimmed : Text.Trimmed Text.isBlank "ΟΔΌΣ".toList := Text.trimWhile_eq_self_iff.mp (by decide +kernel)
  have unknown : (ofList entries 0).values.contains (fold ("ΤΗΣ-" ++ "ΟΔΌΣ")) = false := by decide +kernel
  have unknown' : (ofList entries 0).values.contains (fold ("ΤΗΣ" ++ "ΟΔΌΣ")) = false := by decide +kernel
  have dashed := lookup?_prefixed entries 0 given (by decide) trimmed (front_of_head? rfl (by decide +kernel)) unknown
  have joined := lookup?_prefixed entries 0 given (by decide) trimmed (front_of_head? rfl (by decide +kernel)) unknown'
  have apart : Text.seamless "ΤΗΣ-".toList "ΟΔΌΣ".toList = true := by decide +kernel
  have close : Text.seamless "ΤΗΣ".toList "ΟΔΌΣ".toList = false := by decide +kernel
  have third : t.lookup? "ΟΔΌΣ" = some 3 := by decide +kernel
  refine ⟨⟨apart, (dashed.2.1 apart).trans third⟩, close, fun v found => ?_⟩
  -- the keyword itself keeps its lower case, so nothing else can have been found
  have same : foldBehind "ΤΗΣ" "ΟΔΌΣ" = fold "ΟΔΌΣ" := by decide +kernel
  exact (joined.2.2 close v found).1 same

/-- A base name that ends in a sigma, and a keyword that is one: each is another letter where the two meet, and the
keyword is not found behind the base name. -/
theorem lookup?_prefixed_ne :
    ¬∀ (entries : List (String × Int64)) (fallback : Int64) (base keyword : String),
      keyword ∈ entries.map (·.1) → keyword ≠ "" → Text.Trimmed Text.isBlank keyword.toList →
      (∀ c ∈ base.toList.head?, Text.isBlank c = false) →
      (ofList entries fallback).values.contains (fold (base ++ keyword)) = false →
      ((ofList entries fallback).withBase base).lookup? (base ++ keyword) =
        ((ofList entries fallback).withBase base).lookup? keyword := by
  intro transparent
  have trimmed : Text.Trimmed Text.isBlank "center".toList := Text.trimWhile_eq_self_iff.mp (by decide +kernel)
  have front : ∀ c ∈ "ΟΣ".toList.head?, Text.isBlank c = false := front_of_head? rfl (by decide +kernel)
  have same := transparent [("center", 1)] 0 "ΟΣ" "center" (by decide) (by decide) trimmed front (by decide +kernel)
  have alone : ((ofList [("center", 1)] 0).withBase "ΟΣ").lookup? "center" = some 1 := by decide +kernel
  have behind : ((ofList [("center", 1)] 0).withBase "ΟΣ").lookup? "ΟΣcenter" = none := by decide +kernel
  rw [alone] at same
  exact absurd (behind.symm.trans same) (by decide)

end Stylebook.KeywordTable
