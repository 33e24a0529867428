import Stylebook.Proofs.Token.Blanks
import Stylebook.Proofs.Token.Coverage

/-!
# Texts made of words

A value is read from the kinds and the characters of its tokens. Where they stand, and whether there are blanks in
between, is of no interest to it. A token without its place is a `Word`, and `Lexer.Consists cs ws` says that a text has
no faults and that its words are `ws`.

This makes texts easy to put together: the words of two texts one behind the other are those of the one followed by those
of the other, if the second starts with something that no token goes on with (`Consists.append`). A mark is a word of
its own whatever follows (`Consists.mark`), and blanks are nothing (`Consists.blank`).
-/

set_option autoImplicit false

namespace Stylebook

/-- A token without its place. -/
structure Word where
  kind : TokenKind
  chars : List Char
  deriving DecidableEq

def Token.word (t : Token) : Word :=
  ⟨t.kind, t.chars⟩

/-- The word alone in a text. -/
def Word.token (w : Word) : Token :=
  ⟨w.kind, w.chars, 0, false⟩

section Words

variable (t : Token) (w : Word)

@[simp] theorem Token.kind_word : t.word.kind = t.kind := rfl

@[simp] theorem Token.chars_word : t.word.chars = t.chars := rfl

@[simp] theorem Word.kind_token : w.token.kind = w.kind := rfl

@[simp] theorem Word.chars_token : w.token.chars = w.chars := rfl

end Words

namespace Lexer

/-- The word that a piece is, if it is one. -/
def Piece.word? (p : Piece) : Option Word :=
  match p.kind with
  | .token kind => some ⟨kind, p.chars⟩
  | _ => none

/-- The words of a text, faults passed over. -/
def words (cs : List Char) : List Word :=
  (tokens cs).map Token.word

/-- The text consists of the words, with blanks between them or without. -/
def Consists (cs : List Char) (ws : List Word) : Prop :=
  Sound cs ∧ words cs = ws

variable {a b cs : List Char} {ws vs : List Word}

theorem consists_iff : Consists cs ws ↔ ∃ ts, tokensStrict cs = .ok ts ∧ ts.map Token.word = ws := by
  constructor
  · rintro ⟨sound, rfl⟩
    exact ⟨tokens cs, tokensStrict_of_sound sound, rfl⟩
  · rintro ⟨ts, cut, rfl⟩
    obtain ⟨sound, rfl⟩ := tokensStrict_eq_ok_iff.mp cut
    exact ⟨sound, rfl⟩

/-! ## Words and pieces -/

theorem words_tokensOf (previous : Option Nat) (ps : List Piece) :
    (tokensOf previous ps).map Token.word = ps.filterMap Piece.word? := by
  induction ps generalizing previous with
  | nil => rfl
  | cons p ps ih =>
    obtain ⟨kind, chars, start⟩ := p
    cases kind with
    | token kind => simp [tokensOf, Piece.word?, Token.word, ih]
    | skipped =>
      rw [List.filterMap_cons_none rfl, tokensOf, ih]
    | fault =>
      rw [List.filterMap_cons_none rfl, tokensOf, ih]

/-- Where the text starts does not matter to its words. -/
theorem words_eq (start : Nat) (cs : List Char) : words cs = (scan start cs).filterMap Piece.word? := by
  have moved : scan start cs = (scan 0 cs).map (Piece.shift start) := scan_shift start 0 cs
  rw [words, tokens, words_tokensOf, moved, List.filterMap_map]
  rfl

theorem words_cons {c : Char} {n : Nat} {kind : PieceKind} (first : firstPiece c cs = (kind, n)) :
    words (c :: cs) = (Piece.word? ⟨kind, c :: cs.take n, 0⟩).toList ++ words (cs.drop n) := by
  rw [words_eq 0, words_eq (0 + Text.byteSize (c :: cs.take n)) (cs.drop n), scan, first, List.filterMap_cons]
  cases Piece.word? ⟨kind, c :: cs.take n, 0⟩ <;> rfl

theorem words_append (finished : Finished a) (apart : Apart b) : words (a ++ b) = words a ++ words b := by
  rw [words_eq 0, scan_append apart finished, List.filterMap_append, ← words_eq, ← words_eq]

/-- Each word is spelled as its kind says. -/
theorem mem_pattern_of_mem_words {w : Word} (h : w ∈ words cs) : w.chars ∈ w.kind.pattern := by
  rw [words_eq 0] at h
  obtain ⟨p, hp, word⟩ := List.mem_filterMap.mp h
  obtain ⟨-, rest, -, -, justified⟩ := justified_of_mem_scan hp
  obtain ⟨kind, chars, start⟩ := p
  cases kind with
  | token kind =>
    obtain rfl := Option.some.inj word
    exact justified.1
  | _ => cases word

theorem mem_pattern_of_mem_tokens {t : Token} (h : t ∈ tokens cs) : t.chars ∈ t.kind.pattern := by
  have word : t.word ∈ words cs := List.mem_map_of_mem h
  exact mem_pattern_of_mem_words word

/-! ## Putting texts together -/

theorem consists_nil : Consists [] [] := by
  constructor
  · intro p hp
    simp [scan] at hp
  · simp [words, tokens_eq]

theorem apart_cons {c : Char} (other : continues c = false) (rest : List Char) : Apart (c :: rest) := by
  simp [Apart, other]

/-- What starts apart can be written right behind a text. -/
theorem Consists.append (front : Consists a ws) (behind : Consists b vs) (apart : Apart b) :
    Consists (a ++ b) (ws ++ vs) := by
  obtain ⟨sound, rfl⟩ := front
  obtain ⟨sound', rfl⟩ := behind
  exact ⟨sound_join sound sound' apart, words_append sound.finished apart⟩

theorem Consists.blank {c : Char} (blank : isSkipped c = true) (behind : Consists cs ws) : Consists (c :: cs) ws := by
  obtain ⟨sound, rfl⟩ := behind
  have first := firstPiece_of_skipped blank cs
  constructor
  · exact (sound_cons_iff first).mpr ⟨by simp, sound⟩
  · exact words_cons first

theorem apart_blank {c : Char} (blank : isSkipped c = true) (rest : List Char) : Apart (c :: rest) :=
  apart_cons (not_continues_of_isSkipped blank).1 rest

/-- Texts in a row with a blank between any two have the words of one after the other. -/
theorem consists_intercalate {c : Char} (blank : isSkipped c = true) {texts : List (List Char)} {wss : List (List Word)}
    (all : List.Forall₂ Consists texts wss) : Consists (List.intercalate [c] texts) wss.flatten := by
  induction all with
  | nil => exact consists_nil
  | @cons cs ws texts wss first others ih =>
    cases others with
    | nil => simpa using first
    | cons second others =>
      rw [List.intercalate_cons_cons, List.flatten_cons, List.append_assoc]
      exact first.append (ih.blank blank) (apart_blank blank _)

/-- Marks are words of their own whatever follows, but for the number sign. -/
theorem Consists.mark {c : Char} {kind : TokenKind} (mark : punctuation? c = some kind) (hash : c ≠ '#')
    (behind : Consists cs ws) : Consists (c :: cs) (⟨kind, [c]⟩ :: ws) := by
  obtain ⟨sound, rfl⟩ := behind
  have black : isSkipped c = false := by
    by_contra skipped
    simp only [isSkipped, Bool.not_eq_false, Bool.or_eq_true, beq_iff_eq] at skipped
    rcases skipped with (((rfl | rfl) | rfl) | rfl) | rfl <;> cases mark
  have first := firstPiece_of_some black (recognize_of_punctuation mark hash cs)
  constructor
  · exact (sound_cons_iff first).mpr ⟨by simp, sound⟩
  · exact words_cons first

theorem consists_of_mem_pattern {kind : TokenKind} {w : List Char} (h : w ∈ kind.pattern) : Consists w [⟨kind, w⟩] :=
  consists_iff.mpr ⟨_, tokensStrict_of_mem_pattern h, rfl⟩

/-! ## Names in any case -/

theorem toLower_of_not_isUpper {c : Char} (upper : c.isUpper = false) : c.toLower = c :=
  dif_neg (of_decide_eq_false upper)

theorem isAlpha_of_isUpper {c : Char} (upper : c.isUpper = true) : c.isAlpha = true :=
  (Bool.or_eq_true _ _).mpr (.inl upper)

theorem isAlpha_of_toLower {c : Char} (h : c.toLower.isAlpha = true) : c.isAlpha = true := by
  cases upper : c.isUpper with
  | true => exact isAlpha_of_isUpper upper
  | false => rwa [toLower_of_not_isUpper upper] at h

theorem isNameStart_of_toLower {c : Char} (h : isNameStart c.toLower = true) : isNameStart c = true := by
  cases upper : c.isUpper with
  | true => simp [isNameStart, isAlpha_of_isUpper upper]
  | false => rwa [toLower_of_not_isUpper upper] at h

theorem isNameChar_of_toLower {c : Char} (h : isNameChar c.toLower = true) : isNameChar c = true := by
  cases upper : c.isUpper with
  | true => exact isNameChar_of_isAlpha (isAlpha_of_isUpper upper)
  | false => rwa [toLower_of_not_isUpper upper] at h

/-- What is a name in lower case is a name. -/
theorem isName_of_asciiLower {name : List Char} (h : isName (Text.asciiLower name) = true) : isName name = true := by
  cases name with
  | nil => cases h
  | cons c cs =>
    obtain ⟨first, all⟩ := (Bool.and_eq_true _ _).mp h
    refine (Bool.and_eq_true _ _).mpr ⟨isNameStart_of_toLower first, List.all_eq_true.mpr ?_⟩
    intro x hx
    exact isNameChar_of_toLower (List.all_eq_true.mp all _ (List.mem_map_of_mem hx))

theorem mem_pattern_of_isName {name : List Char} (named : isName name = true) : name ∈ TokenKind.ident.pattern :=
  Pattern.mem_identifier.mpr named

theorem consists_name {name : List Char} (named : isName name = true) : Consists name [⟨.ident, name⟩] :=
  consists_of_mem_pattern (mem_pattern_of_isName named)

end Lexer

end Stylebook
