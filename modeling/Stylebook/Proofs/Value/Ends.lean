import Stylebook.Proofs.Text.Trimming
import Stylebook.Proofs.Token.Blanks
import Stylebook.Proofs.Value.Keywords
import Stylebook.Registry

/-!
# The ends of a value

Where variables are put in, quotes and blanks at the ends of a value are taken off before the value is read. For four
types this cannot be seen, because their readers take them off again. The others read what is left of a text by its
tokens or its separators, and there it cannot be seen if only blanks were taken off, and only such that the reader
knows as blanks (`EndsUnseen`). The thirteen readers then make the same value of both texts, or none of either
(`Registry.parse_trimQuotes`).
-/

set_option autoImplicit false

namespace Stylebook

open Lexer

/-- Whether readers of the type see no difference when quotes and blanks at the ends of the text are taken off. -/
def EndsUnseen (type : ValueType) (cs : List Char) : Prop :=
  type ∈ [ValueType.string, .bool, .number, .relativeNumber] ∨
    type = .keywords ∧ Text.trimQuotes cs = Text.trim cs ∨
    Text.trimQuotes cs = Text.trimWhile isSkipped cs

/-! ## Texts -/

theorem isBlank_of_isSkipped {c : Char} (skipped : isSkipped c = true) : Text.isBlank c = true := by
  simp only [isSkipped, Bool.or_eq_true, beq_iff_eq] at skipped
  rcases skipped with (((rfl | rfl) | rfl) | rfl) | rfl <;> rfl

namespace Text

theorem trimQuotes_trimQuotes (cs : List Char) : trimQuotes (trimQuotes cs) = trimQuotes cs :=
  trimWhile_of_trimmed (trimmed_trimWhile _ cs)

theorem trim_trimQuotes (cs : List Char) : trim (trimQuotes cs) = trimQuotes cs :=
  trimWhile_of_trimmed ((trimmed_trimWhile _ cs).of_imp fun c blank => by simp [blank])

theorem not_isQuoted_trimQuotes (cs : List Char) : isQuoted (trimQuotes cs) = false := by
  unfold isQuoted
  rw [trim_trimQuotes]
  have head := (trimmed_trimWhile (fun c => isBlank c || isQuote c) cs).head
  split
  · rfl
  · rename_i c rest h
    have quote := head c (show c ∈ (trimQuotes cs).head? by rw [h]; rfl)
    simp only [Bool.or_eq_false_iff] at quote
    simp [quote.2]

theorem isQuoted_congr {a b : List Char} (same : trim a = trim b) : isQuoted a = isQuoted b := by
  unfold isQuoted
  rw [same]

theorem trimQuotes_eq_trim {cs : List Char} (skipped : trimQuotes cs = trimWhile isSkipped cs) :
    trimQuotes cs = trim cs := by
  have same : trim (trimWhile isSkipped cs) = trim cs :=
    trimWhile_trimWhile_of_imp (fun _ => isBlank_of_isSkipped) cs
  rw [← skipped, trim_trimQuotes] at same
  exact same

theorem not_isQuoted {cs : List Char} (blank : trimQuotes cs = trim cs) : isQuoted cs = false := by
  rw [← isQuoted_congr (a := trimQuotes cs) (by rw [trim_trimQuotes, blank])]
  exact not_isQuoted_trimQuotes cs

end Text

theorem EndsUnseen.skipped {type : ValueType} {cs : List Char} (unseen : EndsUnseen type cs)
    (plain : type ∉ [ValueType.string, .bool, .number, .relativeNumber]) (other : type ≠ .keywords) :
    Text.trimQuotes cs = Text.trimWhile isSkipped cs := by
  rcases unseen with h | ⟨h, -⟩ | h
  · exact absurd h plain
  · exact absurd h other
  · exact h

theorem EndsUnseen.blank {cs : List Char} (unseen : EndsUnseen .keywords cs) :
    Text.trimQuotes cs = Text.trim cs := by
  rcases unseen with h | ⟨-, h⟩ | h
  · exact absurd h (by decide)
  · exact h
  · exact Text.trimQuotes_eq_trim h

/-! ## Readings by tokens -/

namespace Reading

variable {β γ : Type}

/-- Blanks around a text make no difference to what is read. -/
theorem of_blanks {r : Reading β} (blind : Blind r) (type : ValueType) (cs : List Char) {front back : List Char}
    (before : ∀ c ∈ front, isSkipped c = true) (behind : ∀ c ∈ back, isSkipped c = true) :
    (of type (front ++ (cs ++ back)) r).toOption = (of type cs r).toOption := by
  by_cases sound : Sound cs
  · -- the same tokens, further on
    have whole := tokensStrict_of_sound ((sound_blanks before behind).mpr sound)
    rw [tokens_blanks before behind sound.finished] at whole
    simp only [of, whole, tokensStrict_of_sound sound, blind _ (tokens cs), moved]
  · obtain ⟨e, failed⟩ := tokensStrict_of_not_sound sound
    obtain ⟨e', failed'⟩ := tokensStrict_of_not_sound fun h => sound ((sound_blanks before behind).mp h)
    simp only [of, failed, failed']
    rfl

theorem of_trimQuotes {r : Reading β} (blind : Blind r) (type : ValueType) {cs : List Char}
    (skipped : Text.trimQuotes cs = Text.trimWhile isSkipped cs) :
    (of type (Text.trimQuotes cs) r).toOption = (of type cs r).toOption := by
  obtain ⟨front, back, whole, before, behind⟩ := Text.trimWhile_split isSkipped cs
  have same := of_blanks blind type (Text.trimWhile isSkipped cs) before behind
  rw [← whole] at same
  rw [skipped, same]

theorem whole_trimQuotes {r : Reading β} (blind : Blind r) (type : ValueType) {cs : List Char}
    (skipped : Text.trimQuotes cs = Text.trimWhile isSkipped cs) :
    (whole type (Text.trimQuotes cs) r).toOption = (whole type cs r).toOption :=
  of_trimQuotes (.bind blind fun x => .bind blind_finish fun _ => blind_pure x) type skipped

theorem toOption_map {ε : Type} (f : β → γ) {a b : Except ε β} (same : a.toOption = b.toOption) :
    (a.map f).toOption = (b.map f).toOption := by
  cases a <;> cases b <;> simp_all [Except.toOption, Except.map]

end Reading

/-! ## Keywords -/

namespace Keywords

theorem splitFrom_open {q : Char} (quote : Text.isQuote q = true) {back : List Char}
    (behind : ∀ c ∈ back, Text.isBlank c = true) (current : List Char) : splitFrom (some q) current back = none := by
  induction back generalizing current with
  | nil => rfl
  | cons c back ih =>
    have other : c ≠ q := by
      rintro rfl
      simp [isQuote_of_isSeparator (isSeparator_of_isBlank (behind c List.mem_cons_self))] at quote
    rw [splitFrom]
    simp [other, ih fun x hx => behind x (List.mem_cons_of_mem c hx)]

/-- Blanks end a keyword as the end of the text does, and leave a quote open as it does. -/
theorem splitFrom_back {back : List Char} (behind : ∀ c ∈ back, Text.isBlank c = true) (cs : List Char)
    {quote : Option Char} (quoted : ∀ q ∈ quote, Text.isQuote q = true) (current : List Char) :
    splitFrom quote current (cs ++ back) = splitFrom quote current cs := by
  induction cs generalizing quote current with
  | nil =>
    cases quote with
    | some q => exact splitFrom_open (quoted q rfl) behind current
    | none =>
      have separators : ∀ c ∈ back, isSeparator c = true := fun c hc => isSeparator_of_isBlank (behind c hc)
      have rest := splitFrom_gap separators []
      rw [List.append_nil] at rest
      rw [List.nil_append, splitFrom_stop fun c hc => .inl (separators c (List.mem_of_mem_head? hc)), rest]
      rfl
  | cons c cs ih =>
    cases quote with
    | some q =>
      simp only [List.cons_append, splitFrom]
      rw [ih (by simp), ih quoted]
    | none =>
      simp only [List.cons_append, splitFrom]
      by_cases quote : Text.isQuote c = true
      · rw [if_pos quote, if_pos quote, ih (by simpa using quote)]
      · rw [if_neg quote, if_neg quote, ih (by simp), ih (by simp)]

/-- Blanks around a text make no difference to its keywords. -/
theorem split_trim (cs : List Char) : split (Text.trim cs) = split cs := by
  obtain ⟨front, back, whole, before, behind⟩ := Text.trimWhile_split Text.isBlank cs
  have same : splitFrom none [] cs = splitFrom none [] (Text.trim cs) :=
    (congrArg (splitFrom none []) whole).trans
      ((splitFrom_gap (fun c hc => isSeparator_of_isBlank (before c hc)) _).trans (splitFrom_back behind _ (by simp) []))
  rw [split, split, same]

end Keywords

/-! ## The thirteen readers -/

namespace Registry

open Reading

variable {α : Type} [Scalar α]

theorem readColor_trimQuotes (type : ValueType) {cs : List Char}
    (skipped : Text.trimQuotes cs = Text.trimWhile isSkipped cs) :
    (readColor type (Text.trimQuotes cs) : Except ValueError (Value α)).toOption = (readColor type cs).toOption := by
  unfold readColor
  rw [Text.not_isQuoted_trimQuotes, Text.not_isQuoted (Text.trimQuotes_eq_trim skipped)]
  exact toOption_map _ (whole_trimQuotes Color.blind_take type skipped)

theorem readFigure_trimQuotes {S : Type → Type} [Shape S] (type : ValueType) {cs : List Char}
    (skipped : Text.trimQuotes cs = Text.trimWhile isSkipped cs) :
    (readFigure type (Text.trimQuotes cs) : Except ValueError (S α)).toOption = (readFigure type cs).toOption := by
  unfold readFigure
  rw [Text.not_isQuoted_trimQuotes, Text.not_isQuoted (Text.trimQuotes_eq_trim skipped)]
  exact of_trimQuotes blind_takeFigure type skipped

theorem readKeywords_trimQuotes {β : Type} (type : ValueType) {cs : List Char}
    (blank : Text.trimQuotes cs = Text.trim cs) :
    (readKeywords type (Text.trimQuotes cs) : Except ValueError (Value β)) = readKeywords type cs := by
  unfold readKeywords
  rw [blank, Keywords.split_trim]

/-- The readers of this library make the same of a text with and without the quotes and blanks at its ends, if their
type does not see the difference. One case for each reader. -/
theorem parse_trimQuotes [Trigonometric α] {usual : α} {r : Registry α} {type : ValueType} {read : ValueReader α}
    (standard : (type, read) ∈ standardReaders usual) (given : r.readers.get? type = some read) (serial : Nat)
    {cs : List Char} (unseen : EndsUnseen type cs) :
    (r.parse serial type (String.ofList (Text.trimQuotes cs))).toOption =
      (r.parse serial type (String.ofList cs)).toOption := by
  simp only [parse, given]
  simp only [standardReaders, List.mem_cons, List.not_mem_nil, or_false, Prod.mk.injEq] at standard
  rcases standard with ⟨rfl, rfl⟩ | ⟨rfl, rfl⟩ | ⟨rfl, rfl⟩ | ⟨rfl, rfl⟩ | ⟨rfl, rfl⟩ | ⟨rfl, rfl⟩ | ⟨rfl, rfl⟩ |
    ⟨rfl, rfl⟩ | ⟨rfl, rfl⟩ | ⟨rfl, rfl⟩ | ⟨rfl, rfl⟩ | ⟨rfl, rfl⟩ | ⟨rfl, rfl⟩ <;>
    simp only [reader, String.toList_ofList]
  · rw [readString, readString, Text.trimQuotes_trimQuotes]
  · rw [readBool, readBool, Text.trimQuotes_trimQuotes]
  · rw [readNumber, readNumber, Text.trimQuotes_trimQuotes]
  · rw [readRelativeNumber, readRelativeNumber, Text.trimQuotes_trimQuotes]
  · exact readColor_trimQuotes _ (unseen.skipped (by decide) (by decide))
  · exact toOption_map _ (readFigure_trimQuotes _ (unseen.skipped (by decide) (by decide)))
  · exact toOption_map _ (readFigure_trimQuotes _ (unseen.skipped (by decide) (by decide)))
  · exact toOption_map _ (readFigure_trimQuotes _ (unseen.skipped (by decide) (by decide)))
  · exact toOption_map _ (readFigure_trimQuotes _ (unseen.skipped (by decide) (by decide)))
  · exact toOption_map _ (readFigure_trimQuotes _ (unseen.skipped (by decide) (by decide)))
  · exact toOption_map _ (whole_trimQuotes (Font.blind_take usual true) _ (unseen.skipped (by decide) (by decide)))
  · rw [readKeywords_trimQuotes _ unseen.blank]
  · exact toOption_map _ (of_trimQuotes Transform.blind_take _ (unseen.skipped (by decide) (by decide)))

end Registry

end Stylebook
