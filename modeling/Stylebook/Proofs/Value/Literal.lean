import Stylebook.Proofs.Text.Trimming
import Stylebook.Proofs.Token.Pattern
import Stylebook.Value.Plain

/-!
# What quoted texts mean

Between its quotes, a quoted text has characters and escapes, and `Means` says what they stand for. The reader of texts
takes blanks and quotes off both ends first, before it looks at escapes. Of the content of a quoted text it therefore
leaves the part between the first and the last character that is neither, and resolves the escapes of that. This is the
whole content if it starts and ends with such characters (`readString_literal`).

The part that is left may end with the backslash of an escape, because a quote or a blank behind a backslash is taken off
like any other. What is read then has no meaning in this sense, and nothing is shown of it.
-/

set_option autoImplicit false

namespace Stylebook

namespace Literal

open scoped Computability

/-! ## The meaning of escapes -/

/-- The text stands for the other: a backslash and what is behind it stand for one character. -/
inductive Means : List Char → List Char → Prop
  | nil : Means [] []
  | plain {c : Char} {cs u : List Char} (slash : c ≠ '\\') (rest : Means cs u) : Means (c :: cs) (c :: u)
  | lineFeed {cs u : List Char} (rest : Means cs u) : Means ('\\' :: 'n' :: cs) ('\n' :: u)
  | tab {cs u : List Char} (rest : Means cs u) : Means ('\\' :: 't' :: cs) ('\t' :: u)
  | itself {c : Char} {cs u : List Char} (feed : c ≠ 'n') (tab : c ≠ 't') (rest : Means cs u) :
      Means ('\\' :: c :: cs) (c :: u)

/-- The text ends with a backslash that starts an escape. -/
def EndsInEscape (cs : List Char) : Prop :=
  ∃ a u, Means a u ∧ cs = a ++ ['\\']

variable {a b cs u v : List Char}

theorem Means.escape (c : Char) (rest : Means cs u) : Means ('\\' :: c :: cs) (escapedChar c :: u) := by
  by_cases feed : c = 'n'
  · subst feed
    exact .lineFeed rest
  · by_cases tab : c = 't'
    · subst tab
      exact .tab rest
    · have same : escapedChar c = c := by simp [escapedChar, feed, tab]
      rw [same]
      exact .itself feed tab rest

theorem unescape_cons {c : Char} (slash : c ≠ '\\') (cs : List Char) : unescape (c :: cs) = c :: unescape cs := by
  rw [unescape]
  exact slash

theorem Means.unescape (h : Means cs u) : unescape cs = u := by
  induction h with
  | nil => rfl
  | plain slash rest ih => rw [unescape_cons slash, ih]
  | lineFeed rest ih => rw [Stylebook.unescape, ih]; rfl
  | tab rest ih => rw [Stylebook.unescape, ih]; rfl
  | itself feed tab rest ih => rw [Stylebook.unescape, ih, escapedChar, if_neg feed, if_neg tab]

theorem Means.append (front : Means a u) (behind : Means b v) : Means (a ++ b) (u ++ v) := by
  induction front with
  | nil => exact behind
  | plain slash rest ih => exact .plain slash ih
  | lineFeed rest ih => exact .lineFeed ih
  | tab rest ih => exact .tab ih
  | itself feed tab rest ih => exact .itself feed tab ih

theorem means_self (plain : ∀ c ∈ cs, c ≠ '\\') : Means cs cs := by
  induction cs with
  | nil => exact .nil
  | cons c cs ih =>
    obtain ⟨slash, rest⟩ := List.forall_mem_cons.mp plain
    exact .plain slash (ih rest)

/-- A text without a meaning ends within an escape. -/
theorem exists_means_or_endsInEscape (cs : List Char) : (∃ u, Means cs u) ∨ EndsInEscape cs := by
  fun_induction Stylebook.unescape cs with
  | case1 => exact .inl ⟨[], .nil⟩
  | case2 => exact .inr ⟨[], [], .nil, rfl⟩
  | case3 c rest ih =>
    rcases ih with ⟨u, means⟩ | ⟨a, u, means, rfl⟩
    · exact .inl ⟨_, means.escape c⟩
    · exact .inr ⟨'\\' :: c :: a, _, means.escape c, rfl⟩
  | case4 c rest slash ih =>
    rcases ih with ⟨u, means⟩ | ⟨a, u, means, rfl⟩
    · exact .inl ⟨_, means.plain slash⟩
    · exact .inr ⟨c :: a, _, means.plain slash, rfl⟩

theorem Means.of_plain {c : Char} (slash : c ≠ '\\') (h : Means (c :: cs) u) : ∃ v, Means cs v := by
  cases h with
  | plain _ rest => exact ⟨_, rest⟩
  | lineFeed => exact absurd rfl slash
  | tab => exact absurd rfl slash
  | itself => exact absurd rfl slash

theorem Means.of_escape {c : Char} (h : Means ('\\' :: c :: cs) u) : ∃ v, Means cs v := by
  cases h with
  | plain slash => exact absurd rfl slash
  | lineFeed rest => exact ⟨_, rest⟩
  | tab rest => exact ⟨_, rest⟩
  | itself _ _ rest => exact ⟨_, rest⟩

theorem Means.not_endsInEscape (means : Means cs u) : ¬EndsInEscape cs := by
  rintro ⟨a, v, front, rfl⟩
  induction front generalizing u with
  | nil =>
    cases means with
    | plain slash => exact slash rfl
  | plain slash rest ih =>
    obtain ⟨w, means⟩ := means.of_plain slash
    exact ih means
  | lineFeed rest ih =>
    obtain ⟨w, means⟩ := means.of_escape
    exact ih means
  | tab rest ih =>
    obtain ⟨w, means⟩ := means.of_escape
    exact ih means
  | itself feed tab rest ih =>
    obtain ⟨w, means⟩ := means.of_escape
    exact ih means

/-- What stands between two quotes has a meaning. -/
theorem exists_means_of_body {q : Char} {body : List Char} (h : body ∈ (Pattern.quotable q)∗) : ∃ u, Means body u := by
  obtain ⟨words, rfl, each⟩ := Language.mem_kstar.mp h
  clear h
  induction words with
  | nil => exact ⟨[], .nil⟩
  | cons word words ih =>
    obtain ⟨mem, each⟩ := List.forall_mem_cons.mp each
    obtain ⟨u, means⟩ := ih each
    rw [List.flatten_cons]
    rcases Pattern.mem_quotable.mp mem with ⟨c, rfl, -, slash⟩ | ⟨c, rfl, -⟩
    · exact ⟨_, means.plain slash⟩
    · exact ⟨_, means.escape c⟩

/-! ## Quoted texts -/

/-- Blanks and quotes, which are taken off the ends of a text. -/
def isEdge (c : Char) : Bool :=
  Text.isBlank c || Text.isQuote c

theorem ne_slash_of_isEdge {c : Char} (edge : isEdge c = true) : c ≠ '\\' := by
  rintro rfl
  revert edge
  decide

/-- A quoted text is two quotes around a text that may stand between them. -/
theorem quote_and_body {kind : TokenKind} (quoted : kind = .doubleQuoted ∨ kind = .singleQuoted) {q : Char}
    {body : List Char} (literal : q :: (body ++ [q]) ∈ kind.pattern) :
    isEdge q = true ∧ body ∈ (Pattern.quotable q)∗ := by
  have of_quoted {p : Char} (edge : isEdge p = true) (literal : q :: (body ++ [q]) ∈ Pattern.quoted p) :
      isEdge q = true ∧ body ∈ (Pattern.quotable q)∗ := by
    obtain ⟨body', mem, same⟩ := Pattern.mem_quoted.mp literal
    obtain ⟨rfl, same⟩ := List.cons.inj same
    obtain ⟨rfl, -⟩ := List.append_inj' same rfl
    exact ⟨edge, mem⟩
  rcases quoted with rfl | rfl
  · exact of_quoted (by decide) literal
  · exact of_quoted (by decide) literal

/-- What is read between blanks and quotes is what the rest means. -/
theorem readString_of_means {α : Type} {front core back : List Char} (before : ∀ c ∈ front, isEdge c = true)
    (behind : ∀ c ∈ back, isEdge c = true) (trimmed : Text.Trimmed isEdge core) (means : Means core u)
    (type : ValueType) :
    (readString type (front ++ (core ++ back)) : Except ValueError (Value α)) = .ok (.string (String.ofList u)) := by
  have core' : Text.trimQuotes (front ++ (core ++ back)) = core := Text.trimWhile_append trimmed before behind
  rw [readString, core', means.unescape]

section Reading

variable {α : Type} {kind : TokenKind} {q : Char} {body : List Char}

/-- **What is read from a quoted text** is what its content means without the blanks and quotes at its ends, if that does
not end in an escape. Content that has none at its ends is read as it is. -/
theorem readString_literal (quoted : kind = .doubleQuoted ∨ kind = .singleQuoted)
    (literal : q :: (body ++ [q]) ∈ kind.pattern) (type : ValueType) :
    (∀ front core back, body = front ++ (core ++ back) → (∀ c ∈ front, isEdge c = true) →
        (∀ c ∈ back, isEdge c = true) → Text.Trimmed isEdge core → ¬EndsInEscape core →
          ∃ u, Means core u ∧ Means body (front ++ (u ++ back)) ∧
            (readString type (q :: (body ++ [q])) : Except ValueError (Value α)) = .ok (.string (String.ofList u))) ∧
      (Text.Trimmed isEdge body →
        ∃ u, Means body u ∧
          (readString type (q :: (body ++ [q])) : Except ValueError (Value α)) = .ok (.string (String.ofList u))) := by
  obtain ⟨edge, inside⟩ := quote_and_body quoted literal
  constructor
  · intro front core back split before behind trimmed complete
    obtain ⟨u, means⟩ := (exists_means_or_endsInEscape core).resolve_right complete
    have plain {cs : List Char} (edges : ∀ c ∈ cs, isEdge c = true) : Means cs cs :=
      means_self fun c hc => ne_slash_of_isEdge (edges c hc)
    have whole : q :: (body ++ [q]) = (q :: front) ++ (core ++ (back ++ [q])) := by simp [split]
    refine ⟨u, means, ?_, ?_⟩
    · rw [split]
      exact (plain before).append (means.append (plain behind))
    · rw [whole]
      exact readString_of_means (List.forall_mem_cons.mpr ⟨edge, before⟩)
        (List.forall_mem_append.mpr ⟨behind, List.forall_mem_singleton.mpr edge⟩) trimmed means type
  · intro trimmed
    obtain ⟨u, means⟩ := exists_means_of_body inside
    have edges : ∀ c ∈ [q], isEdge c = true := List.forall_mem_singleton.mpr edge
    exact ⟨u, means, readString_of_means edges edges trimmed means type⟩

theorem readString_literal_edges :
    ('"' :: (" a\\nb' ".toList ++ ['"']) ∈ TokenKind.doubleQuoted.pattern ∧
        ¬EndsInEscape "a\\nb".toList ∧ Means "a\\nb".toList "a\nb".toList ∧
        (readString .string "\" a\\nb' \"".toList : Except ValueError (Value Rat)) = .ok (.string "a\nb")) ∧
      '\'' :: ("it\\'s".toList ++ ['\'']) ∈ TokenKind.singleQuoted.pattern ∧
        Text.Trimmed isEdge "it\\'s".toList ∧
        (readString .string "'it\\'s'".toList : Except ValueError (Value Rat)) = .ok (.string "it's") := by
  have double : '"' :: (" a\\nb' ".toList ++ ['"']) ∈ TokenKind.doubleQuoted.pattern :=
    Lexer.mem_pattern_of_recognize
      (show Lexer.recognize '"' (" a\\nb' ".toList ++ ['"']) = (some .doubleQuoted, 8) from rfl)
  have single : '\'' :: ("it\\'s".toList ++ ['\'']) ∈ TokenKind.singleQuoted.pattern :=
    Lexer.mem_pattern_of_recognize
      (show Lexer.recognize '\'' ("it\\'s".toList ++ ['\'']) = (some .singleQuoted, 6) from rfl)
  have line : Means "a\\nb".toList "a\nb".toList :=
    .plain (by decide) (.lineFeed (.plain (by decide) .nil))
  have escaped : Means "it\\'s".toList "it's".toList :=
    .plain (by decide) (.plain (by decide) (.itself (by decide) (by decide) (.plain (by decide) .nil)))
  have trimmed : Text.Trimmed isEdge "a\\nb".toList := ⟨by rintro _ ⟨⟩; rfl, by rintro _ ⟨⟩; rfl⟩
  have trimmed' : Text.Trimmed isEdge "it\\'s".toList := ⟨by rintro _ ⟨⟩; rfl, by rintro _ ⟨⟩; rfl⟩
  obtain ⟨u, means, -, read⟩ := (readString_literal (α := Rat) (.inl rfl) double .string).1 [' '] "a\\nb".toList
    ['\'', ' '] rfl (List.all_eq_true.mp rfl) (List.all_eq_true.mp rfl) trimmed line.not_endsInEscape
  obtain ⟨u', means', read'⟩ := (readString_literal (α := Rat) (.inr rfl) single .string).2 trimmed'
  obtain rfl := means.unescape.symm.trans line.unescape
  obtain rfl := means'.unescape.symm.trans escaped.unescape
  exact ⟨⟨double, line.not_endsInEscape, line, read⟩, single, trimmed', read'⟩

/-- Blanks right behind the opening quote do not last. -/
theorem readString_literal_blank :
    '"' :: (" a".toList ++ ['"']) ∈ TokenKind.doubleQuoted.pattern ∧ Means " a".toList " a".toList ∧
      (readString .string ('"' :: (" a".toList ++ ['"'])) : Except ValueError (Value Rat)) = .ok (.string "a") ∧
      "a" ≠ String.ofList " a".toList := by
  refine ⟨?_, means_self (by simp), rfl, by decide⟩
  exact Lexer.mem_pattern_of_recognize
    (show Lexer.recognize '"' (" a".toList ++ ['"']) = (some .doubleQuoted, 3) from rfl)

end Reading

end Literal

end Stylebook
