import Stylebook.Proofs.Token.Words

/-!
# Texts with blanks between them

Where blanks separate two texts, the lexer sees the second one as if it stood alone, only further on, provided that the
first one has no faults (`tokens_separated`, `tokensStrict_separated`). Three things have to hold for that. No token of
the first text goes on into the blanks, and that is `scan_append`. Nothing is carried over but the end of the last token,
against which the next one is checked to be joined; and with a blank in between, it is not. And a fault of the second
text is at the same place in it.

The condition on the first text cannot go: a fault may be a quoted text that was left open, and what is written behind it
can close it.
-/

set_option autoImplicit false

namespace Stylebook.Lexer

variable {a b w cs : List Char}

/-! ## Tokens -/

/-- A token that stands further on than the end of what was in front of it is not joined to it. -/
theorem tokensOf_of_lt {previous : Option Nat} {ps : List Piece} (before : ∀ n ∈ previous, ∀ p ∈ ps, n < p.start) :
    tokensOf previous ps = tokensOf none ps := by
  induction ps with
  | nil => rfl
  | cons p ps ih =>
    cases kind : p.kind with
    | token k =>
      have apart : (previous == some p.start) = false := by
        cases previous with
        | none => rfl
        | some n =>
          have less := before n rfl p List.mem_cons_self
          simpa using Nat.ne_of_lt less
      simp only [tokensOf, kind, apart]
      rfl
    | skipped => simpa [tokensOf, kind] using ih fun n hn q hq => before n hn q (List.mem_cons_of_mem _ hq)
    | fault => simpa [tokensOf, kind] using ih fun n hn q hq => before n hn q (List.mem_cons_of_mem _ hq)

/-- The tokens of a text end within it. -/
theorem stopBehind_le {n : Nat} (stop : n ∈ stopBehind none (tokens cs)) : n ≤ Text.byteSize cs := by
  unfold stopBehind at stop
  split at stop
  · rename_i t last
    cases stop
    obtain ⟨rest, stands, -⟩ := stands_of_mem_scan (mem_tokensOf (List.mem_of_getLast? last))
    exact stands.stop_le
  · cases stop

theorem apart_append (blank : ∀ c ∈ w, isSkipped c = true) (filled : w ≠ []) : Apart (w ++ b) := by
  obtain ⟨c, w, rfl⟩ := List.exists_cons_of_ne_nil filled
  exact apart_blank (blank c List.mem_cons_self) (w ++ b)

theorem byteSize_pos (filled : w ≠ []) : 0 < Text.byteSize w := by
  obtain ⟨c, w, rfl⟩ := List.exists_cons_of_ne_nil filled
  have positive := Char.utf8Size_pos c
  rw [Text.byteSize_cons]
  omega

/-- Behind a text without faults and some blanks, the tokens of another text are only further on. -/
theorem tokens_separated (sound : Sound a) (blank : ∀ c ∈ w, isSkipped c = true) (filled : w ≠ []) :
    tokens (a ++ w ++ b) = tokens a ++ (tokens b).map (Token.shift (Text.byteSize (a ++ w))) := by
  have cut : tokens (a ++ w ++ b) =
      tokens a ++ tokensFrom (stopBehind none (tokens a)) (Text.byteSize a) (w ++ b) := by
    rw [List.append_assoc, tokens, scan_append (apart_append blank filled) sound.finished, tokensOf_append, Nat.zero_add]
    rfl
  have unjoined : tokensFrom (stopBehind none (tokens a)) (Text.byteSize (a ++ w)) b =
      tokensFrom none (Text.byteSize (a ++ w)) b := by
    apply tokensOf_of_lt
    intro n hn p hp
    have ended := stopBehind_le hn
    have room := byteSize_pos filled
    have place := (start_of_mem_scan hp).1
    rw [Text.byteSize_append] at place
    omega
  have moved : tokensFrom none (Text.byteSize (a ++ w)) b = (tokens b).map (Token.shift (Text.byteSize (a ++ w))) :=
    tokensFrom_shift (Text.byteSize (a ++ w)) 0 none b
  rw [cut, tokensFrom_blanks blank, ← Text.byteSize_append, unjoined, moved]

/-! ## Faults -/

/-- The first fault of a text that starts at the offset `start`. -/
def faultFrom? (start : Nat) (cs : List Char) : Option Nat :=
  ((scan start cs).find? (·.kind == .fault)).map (·.start)

theorem faultFrom?_shift (d : Nat) (cs : List Char) : faultFrom? d cs = (firstFault? cs).map (d + ·) := by
  have moved : scan d cs = (scan 0 cs).map (Piece.shift d) := scan_shift d 0 cs
  rw [faultFrom?, moved, List.find?_map, firstFault?, Option.map_map, Option.map_map]
  rfl

theorem faultFrom?_blanks (blank : ∀ c ∈ w, isSkipped c = true) (start : Nat) :
    faultFrom? start (w ++ b) = faultFrom? (start + Text.byteSize w) b := by
  induction w generalizing start with
  | nil => rfl
  | cons c w ih =>
    obtain ⟨first, blank⟩ := List.forall_mem_cons.mp blank
    have behind := ih blank (start + c.utf8Size)
    unfold faultFrom? at behind ⊢
    rw [List.cons_append, scan, firstPiece_of_skipped first]
    simpa [Nat.add_assoc] using behind

theorem firstFault?_separated (sound : Sound a) (blank : ∀ c ∈ w, isSkipped c = true) (filled : w ≠ []) :
    firstFault? (a ++ w ++ b) = (firstFault? b).map (Text.byteSize (a ++ w) + ·) := by
  have none : (scan 0 a).find? (·.kind == .fault) = none := by
    rw [List.find?_eq_none]
    intro p hp
    simpa using sound p hp
  have cut : firstFault? (a ++ w ++ b) = faultFrom? (Text.byteSize a) (w ++ b) := by
    rw [List.append_assoc, firstFault?, scan_append (apart_append blank filled) sound.finished, List.find?_append, none,
      Nat.zero_add]
    rfl
  rw [cut, faultFrom?_blanks blank, ← Text.byteSize_append, faultFrom?_shift]

/-- Strictly, the second text decides, with its offsets moved. -/
theorem tokensStrict_separated (sound : Sound a) (blank : ∀ c ∈ w, isSkipped c = true) (filled : w ≠ []) :
    tokensStrict (a ++ w ++ b) =
      match tokensStrict b with
      | .ok us => .ok (tokens a ++ us.map (Token.shift (Text.byteSize (a ++ w))))
      | .error offset => .error (Text.byteSize (a ++ w) + offset) := by
  unfold tokensStrict
  rw [firstFault?_separated sound blank filled, tokens_separated sound blank filled]
  cases firstFault? b <;> rfl

/-! ## Tokens one by one -/

/-- The tokens of a text, written with blanks between them, are a text of the same words without faults. -/
theorem consists_tokens (cs : List Char) :
    Consists (List.intercalate [' '] ((tokens cs).map (·.chars))) ((tokens cs).map Token.word) := by
  have each : List.Forall₂ Consists ((tokens cs).map (·.chars)) ((tokens cs).map fun t => [t.word]) := by
    rw [List.forall₂_map_left_iff, List.forall₂_map_right_iff, List.forall₂_same]
    intro t ht
    exact consists_of_mem_pattern (mem_pattern_of_mem_tokens ht)
  have joined := consists_intercalate (c := ' ') rfl each
  have single : ((tokens cs).map fun t => [t.word]).flatten = (tokens cs).map Token.word := by
    rw [← List.flatMap_def]
    exact List.flatMap_pure_eq_map ..
  rwa [single] at joined

/-- **Blanks take texts apart.** Let a text be made of tokens and blanks alone, and let some blanks and any other text
follow it. Then there are the tokens of the one text and those of the other, moved by the length of what stands in front
of it, and the whole has faults if the other text has any, the first one moved as well. So the tokens of any text,
written with a blank between any two, are again the same tokens, and nothing else. -/
theorem separated_by_blanks :
    (∀ (a w b : List Char) (ts : List Token), (∀ c ∈ w, isSkipped c = true) → w ≠ [] → tokensStrict a = .ok ts →
      tokens (a ++ w ++ b) = ts ++ (tokens b).map (Token.shift (Text.byteSize (a ++ w))) ∧
      tokensStrict (a ++ w ++ b) =
        match tokensStrict b with
        | .ok us => .ok (ts ++ us.map (Token.shift (Text.byteSize (a ++ w))))
        | .error offset => .error (Text.byteSize (a ++ w) + offset)) ∧
    ∀ cs, ∃ us, tokensStrict (List.intercalate [' '] ((tokens cs).map (·.chars))) = .ok us ∧
      us.map Token.word = (tokens cs).map Token.word := by
  refine ⟨?_, ?_⟩
  · intro a w b ts blank filled cut
    obtain ⟨sound, rfl⟩ := tokensStrict_eq_ok_iff.mp cut
    exact ⟨tokens_separated sound blank filled, tokensStrict_separated sound blank filled⟩
  · intro cs
    exact consists_iff.mp (consists_tokens cs)

/-- A quoted text with a blank in it and a number that gives back its point, then a text with a fault, which starts
like what would go on with the number. -/
theorem separated_by_blanks_point :
    let a := "'x y' 1.".toList
    let w := [' ', '\n']
    let b := "5pt ?".toList
    let ts : List Token := [⟨.singleQuoted, "'x y'".toList, 0, false⟩, ⟨.number, ['1'], 6, false⟩, ⟨.dot, ['.'], 7, true⟩]
    tokens (a ++ w ++ b) = ts ++ [⟨.dimension, "5pt".toList, 10, false⟩] ∧ tokensStrict (a ++ w ++ b) = .error 14 := by
  intro a w b ts
  have cut : tokensStrict a = .ok ts := by decide +kernel
  have other : tokens b = [⟨.dimension, "5pt".toList, 0, false⟩] := by decide +kernel
  have fault : tokensStrict b = .error 4 := by decide +kernel
  have blank : ∀ c ∈ w, isSkipped c = true := by
    intro c hc
    have one : c = ' ' ∨ c = '\n' := by simpa [w] using hc
    rcases one with rfl | rfl <;> rfl
  have filled : w ≠ [] := List.cons_ne_nil ' ' ['\n']
  obtain ⟨cuts, strict⟩ := separated_by_blanks.1 a w b ts blank filled cut
  rw [other] at cuts
  rw [fault] at strict
  exact ⟨cuts, strict⟩

end Stylebook.Lexer
