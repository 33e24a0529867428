import Mathlib.Data.Finset.Fold
import Stylebook.Property.Basic
import Stylebook.Property.KeywordTable
import Stylebook.Proofs.Text.Lowercase
import Stylebook.Proofs.Value.Keywords

/-!
# Keywords as a bit mask

A property whose keywords are read as a bit mask splits a text twice: once at separators and quotes, into keywords with
single blanks between them, and then that text at blanks, bars and dashes. A keyword that no such character is part of
comes through both (`maskKeywords_intercalate`).

Keys of a table are in lower case (`Built.fold_key`), so a key is found by each text that differs from it in the case of
ASCII letters only, whatever the base name is (`Names.valueFor`). The number of a row of keys is then the
union of their numbers, and that is a number for the set of them (`foldl_or`): order and repetition are lost.
-/

set_option autoImplicit false

namespace Stylebook

namespace KeywordTable

/-! ## Keys of a table -/

/-- The tables that there are: a row of entries is given, and base names for it, of which the last one counts. -/
inductive Built : KeywordTable → Prop where
  | ofList (entries : List (String × Int64)) (fallback : Int64) : Built (ofList entries fallback)
  | withBase {t : KeywordTable} (built : Built t) (base : String) : Built (t.withBase base)

theorem fold_fold (s : String) : fold (fold s) = fold s := by
  rw [fold, fold, String.toList_ofList, Text.lower_lower]

/-- Keys are in lower case. -/
theorem Built.fold_key {t : KeywordTable} (built : t.Built) {k : String} {v : Int64}
    (found : t.values.get? k = some v) : fold k = k := by
  induction built with
  | withBase built base ih => exact ih found
  | ofList entries fallback =>
    rw [KeywordTable.ofList, Table.get?_ofList, Option.map_eq_some_iff] at found
    obtain ⟨e, last, -⟩ := found
    obtain ⟨given, -, written⟩ := List.mem_map.mp (List.mem_reverse.mp (List.mem_of_find?_eq_some last))
    have key : e.1 = k := by simpa using List.find?_some last
    rw [← key, ← written]
    exact fold_fold given.1

/-! ## Keywords that are not taken apart -/

/-- Characters at which a text of keywords or a bit mask is split, and quotes. -/
def isDivider (c : Char) : Bool :=
  Keywords.isSeparator c || Text.isQuote c || isMaskSeparator c

/-- A keyword that is one keyword of a bit mask. -/
structure Whole (w : List Char) : Prop where
  nonempty : w ≠ []
  plain : ∀ c ∈ w, isDivider c = false

instance (w : List Char) : Decidable (Whole w) :=
  decidable_of_iff (w ≠ [] ∧ w.all (fun c => !isDivider c) = true)
    ⟨fun h => ⟨h.1, by simpa using h.2⟩, fun h => ⟨h.nonempty, by simpa using h.plain⟩⟩

/-- No letter is a divider. -/
theorem isDivider_toLower (c : Char) : isDivider c.toLower = isDivider c := by
  by_cases ascii : c.toNat < 128
  · have all : ∀ n < 128, isDivider (Char.ofNat n).toLower = isDivider (Char.ofNat n) := by decide +kernel
    exact Text.of_ascii (P := fun c => isDivider c.toLower = isDivider c) all ascii
  · rw [Text.toLower_of_above (by omega)]

theorem Whole.of_sameIgnoringCase {w k : List Char} (whole : Whole k) (same : Text.sameIgnoringCase w k = true) :
    Whole w := by
  have same : w.map Char.toLower = k.map Char.toLower := beq_iff_eq.mp same
  constructor
  · rintro rfl
    exact whole.nonempty (List.map_eq_nil_iff.mp same.symm)
  · intro c hc
    have lowered : c.toLower ∈ k.map Char.toLower := same ▸ List.mem_map_of_mem hc
    obtain ⟨d, hd, eq⟩ := List.mem_map.mp lowered
    rw [← isDivider_toLower, ← eq, isDivider_toLower]
    exact whole.plain d hd

theorem Whole.trim_eq {w : List Char} (whole : Whole w) : Text.trim w = w := by
  apply Keywords.trim_eq_self
  intro c hc
  have plain := whole.plain c hc
  simp only [isDivider, Bool.or_eq_false_iff] at plain
  exact plain.1.1

theorem maskKeywords_intercalate {ws : List (List Char)} (nonempty : ws ≠ []) (whole : ∀ w ∈ ws, Whole w) :
    maskKeywords (String.ofList ([' '].intercalate ws)) = ws.map String.ofList := by
  have plain : ∀ w ∈ ws, ∀ c ∈ w, isMaskSeparator c = false := by
    intro w hw c hc
    exact (Bool.or_eq_false_iff.mp ((whole w hw).plain c hc)).2
  have filled : ws.filter (fun w => !w.isEmpty) = ws := by
    apply List.filter_eq_self.mpr
    intro w hw
    simpa using (whole w hw).nonempty
  rw [maskKeywords, String.toList_ofList, Text.splitWhere_intercalate_singleton rfl nonempty plain, filled]

/-! ## Numbers of keywords -/

variable {t : KeywordTable}

/-- The text is the key of a table in some case of its ASCII letters, and the key is not taken apart. -/
structure Names (t : KeywordTable) (w : List Char) (key : String) : Prop where
  known : t.values.contains key = true
  whole : Whole key.toList
  same : Text.sameIgnoringCase w key.toList = true

instance (t : KeywordTable) (w : List Char) (key : String) : Decidable (t.Names w key) :=
  decidable_of_iff (t.values.contains key = true ∧ Whole key.toList ∧ Text.sameIgnoringCase w key.toList = true)
    ⟨fun h => ⟨h.1, h.2.1, h.2.2⟩, fun h => ⟨h.known, h.whole, h.same⟩⟩

theorem Names.whole_text {w : List Char} {key : String} (names : t.Names w key) : Whole w :=
  names.whole.of_sameIgnoringCase names.same

theorem whole_of_names {ws : List (List Char)} {keys : List String}
    (written : List.Forall₂ t.Names ws keys) : ∀ w ∈ ws, Whole w := by
  induction written with
  | nil => exact List.forall_mem_nil _
  | cons names written ih => exact List.forall_mem_cons.mpr ⟨names.whole_text, ih⟩

/-- The number of a key. -/
def number (t : KeywordTable) (key : String) : Int64 :=
  (t.values.get? key).getD 0

/-- A key is found in any case of its ASCII letters. The base name does not come in, since keys are looked up first. -/
theorem Names.valueFor (built : t.Built) {w : List Char} {key : String} (names : t.Names w key) :
    t.valueFor (String.ofList w) = t.number key := by
  obtain ⟨v, found⟩ := Option.isSome_iff_exists.mp names.known
  have small : Text.lower key.toList = key.toList := by
    have key := congrArg String.toList (built.fold_key found)
    rwa [fold, String.toList_ofList] at key
  have lowered : Text.lower w = key.toList := by
    have same := names.same
    rw [← small] at same ⊢
    exact Text.lower_of_sameIgnoringCase same
  rw [KeywordTable.valueFor, lookup?, String.toList_ofList, names.whole_text.trim_eq, lowered, String.ofList_toList,
    number, found]
  rfl

/-- The union of the numbers of keys. -/
def union (t : KeywordTable) (keys : Finset String) : Int64 :=
  keys.fold (fun a b : Int64 => a ||| b) 0 t.number

/-- The union over a row of keys is that over the set of them. -/
theorem foldl_or (t : KeywordTable) (keys : List String) (mask : Int64) :
    keys.foldl (fun mask k => mask ||| t.number k) mask = mask ||| t.union keys.toFinset := by
  induction keys generalizing mask with
  | nil => exact Int64.or_zero.symm
  | cons k keys ih =>
    rw [List.foldl_cons, ih, List.toFinset_cons, union, union, Finset.fold_insert_idem, Int64.or_assoc]

/-- What a row of keys stands for. -/
theorem maskFor_intercalate (built : t.Built) {ws : List (List Char)} {keys : List String} (nonempty : keys ≠ [])
    (written : List.Forall₂ t.Names ws keys) :
    t.maskFor (String.ofList ([' '].intercalate ws)) =
      if t.union keys.toFinset = 0 then t.fallback else t.union keys.toFinset := by
  have numbers : ws.map (fun w => t.valueFor (String.ofList w)) = keys.map t.number := by
    clear nonempty
    induction written with
    | nil => rfl
    | cons names written ih => rw [List.map_cons, List.map_cons, names.valueFor built, ih]
  have filled : ws ≠ [] := by
    rintro rfl
    exact nonempty (List.forall₂_nil_left_iff.mp written)
  have mask : (ws.map String.ofList).foldl (fun mask k => mask ||| t.valueFor k) 0 = t.union keys.toFinset := by
    rw [List.foldl_map]
    calc ws.foldl (fun mask w => mask ||| t.valueFor (String.ofList w)) 0
      _ = (ws.map fun w => t.valueFor (String.ofList w)).foldl (· ||| ·) 0 := List.foldl_map.symm
      _ = keys.foldl (fun mask k => mask ||| t.number k) 0 := by rw [numbers, List.foldl_map]
      _ = t.union keys.toFinset := by rw [foldl_or, Int64.zero_or]
  rw [maskFor, maskKeywords_intercalate filled (whole_of_names written), mask]

end KeywordTable

open Keywords in
/-- **A bit mask is the union of its keywords.** A text of keywords that are keys of a table, in any order, any number
of times, in any case of ASCII letters and with any separators, is read by a property that takes the table for bit masks
as the union of their numbers, or as the fallback if that is zero. So only the set of keys matters. -/
theorem mapKeywords_maskFor {α κ : Type} (p : Property α κ) {t : KeywordTable} (built : t.Built) (type : ValueType)
    {l : Layout} {keys : List String} (nonempty : keys ≠ [])
    (written : List.Forall₂ (fun a key => t.Names a.text key) l.atoms keys) :
    (readKeywords type l.chars : Except ValueError (Value α)).map (p.withMapping t.maskFor).mapKeywords =
      .ok (.enumValue (if t.union keys.toFinset = 0 then t.fallback else t.union keys.toFinset)) := by
  have rows : List.Forall₂ t.Names (l.atoms.map Atom.text) keys := List.forall₂_map_left_iff.mpr written
  have visible : ∀ a ∈ l.atoms, a.isBare = false → Text.trim a.text ≠ [] := by
    intro a ha _
    have whole := KeywordTable.whole_of_names rows a.text (List.mem_map_of_mem ha)
    rw [whole.trim_eq]
    exact whole.nonempty
  have mask := KeywordTable.maskFor_intercalate built nonempty rows
  unfold readKeywords
  rw [split_layout_visible visible]
  cases atoms : l.atoms with
  | nil =>
    rw [atoms] at written
    exact absurd (List.forall₂_nil_left_iff.mp written) nonempty
  | cons a atoms' =>
    rw [atoms] at mask
    rw [← mask, ← Text.join_eq_intercalate]
    rfl

open Keywords in
/-- Keywords in capitals, one of them twice and another with a key behind the base name. -/
theorem mapKeywords_maskFor_repeated :
    let t := (KeywordTable.ofList [("Left", 1), ("ft", 2), ("TOP", 4)] 9).withBase "Le"
    let p : Property Rat Unit := Property.plain "edges" .keywords "Panel"
    (readKeywords .keywords "TOP|left , |Top".toList : Except ValueError (Value Rat)).map
      (p.withMapping t.maskFor).mapKeywords = .ok (.enumValue 5) := by
  intro t p
  let placed : List Placed :=
    [⟨[], .bare ['T', 'O', 'P'] (by decide) (plain_of_all rfl), List.forall_mem_nil _⟩,
      ⟨['|'], .bare ['l', 'e', 'f', 't'] (by decide) (plain_of_all rfl), List.all_eq_true.mp rfl⟩,
      ⟨[' ', ',', ' ', '|'], .bare ['T', 'o', 'p'] (by decide) (plain_of_all rfl), List.all_eq_true.mp rfl⟩]
  have parted : placed.IsChain Placed.Before := by simp [placed, Placed.Before]
  have built : t.Built := .withBase (.ofList _ _) "Le"
  have written : List.Forall₂ (fun a key => t.Names a.text key) (placed.map (·.atom)) ["top", "left", "top"] := by
    apply List.Forall₂.cons (by decide +kernel)
    apply List.Forall₂.cons (by decide +kernel)
    exact List.Forall₂.cons (by decide +kernel) .nil
  have mask : (if t.union ["top", "left", "top"].toFinset = 0 then t.fallback
      else t.union ["top", "left", "top"].toFinset) = 5 := by decide +kernel
  let l : Layout := ⟨placed, [], parted, List.forall_mem_nil _⟩
  have reads := mapKeywords_maskFor p built .keywords (l := l) (by decide) written
  rw [mask] at reads
  exact reads

end Stylebook
