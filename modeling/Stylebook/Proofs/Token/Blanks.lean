import Stylebook.Proofs.Token.Spelling
import Stylebook.Proofs.Value.Blind

/-!
# Blanks around a text

What the lexer skips at the two ends of a text moves its tokens and does nothing else (`tokens_blanks`), and the text
has faults with these blanks if it has any without (`sound_blanks`). The second is not obvious for blanks at the end: a
fault of the text may be a quoted text that was left open, and then they are part of it.
-/

set_option autoImplicit false

namespace Stylebook.Lexer

theorem sound_iff (start : Nat) (cs : List Char) : Sound cs ↔ ∀ p ∈ scan start cs, p.kind ≠ .fault := by
  have shifted : scan start cs = (scan 0 cs).map (Piece.shift start) := scan_shift start 0 cs
  rw [shifted]
  simp [Sound, Piece.shift]

/-- What starts apart adds no faults to a text if it has none itself. -/
theorem sound_join {a b : List Char} (front : Sound a) (behind : Sound b) (apart : Apart b) : Sound (a ++ b) := by
  intro p hp
  rw [scan_append apart front.finished] at hp
  rcases List.mem_append.mp hp with hp | hp
  · exact front p hp
  · exact (sound_iff _ b).mp behind p hp

theorem sound_cons_iff {c : Char} {cs : List Char} {n : Nat} {kind : PieceKind} (first : firstPiece c cs = (kind, n)) :
    Sound (c :: cs) ↔ kind ≠ .fault ∧ Sound (cs.drop n) := by
  rw [sound_iff (0 + Text.byteSize (c :: cs.take n)) (cs.drop n), Sound, scan, first]
  simp

theorem tokensStrict_of_sound {cs : List Char} (sound : Sound cs) : tokensStrict cs = .ok (tokens cs) :=
  tokensStrict_eq_ok_iff.mpr ⟨sound, rfl⟩

theorem tokensStrict_of_not_sound {cs : List Char} (unsound : ¬Sound cs) : ∃ e, tokensStrict cs = .error e := by
  cases cut : tokensStrict cs with
  | ok ts => exact absurd (tokensStrict_eq_ok_iff.mp cut).1 unsound
  | error e => exact ⟨e, rfl⟩

theorem not_continues_of_isSkipped {c : Char} (skipped : isSkipped c = true) :
    continues c = false ∧ Text.isQuote c = false := by
  simp only [isSkipped, Bool.or_eq_true, beq_iff_eq] at skipped
  rcases skipped with (((rfl | rfl) | rfl) | rfl) | rfl <;> exact ⟨rfl, rfl⟩

theorem apart_of_blank {back : List Char} (behind : ∀ c ∈ back, isSkipped c = true) : Apart back :=
  fun c hc => (not_continues_of_isSkipped (behind c (List.mem_of_mem_head? hc))).1

theorem sound_of_blank {back : List Char} (behind : ∀ c ∈ back, isSkipped c = true) : Sound back := by
  induction back with
  | nil => simp [Sound, scan]
  | cons c back ih =>
    obtain ⟨blank, behind⟩ := List.forall_mem_cons.mp behind
    exact (sound_cons_iff (firstPiece_of_skipped blank back)).mpr ⟨by simp, ih behind⟩

/-- Faults stay where a text goes on with something apart that holds no quotes. -/
theorem fault_append {rest : List Char} (apart : Apart rest) (plain : ∀ c ∈ rest, Text.isQuote c = false)
    {start : Nat} {cs : List Char} (fault : ∃ p ∈ scan start cs, p.kind = .fault) :
    ∃ p ∈ scan start (cs ++ rest), p.kind = .fault := by
  fun_induction scan start cs with
  | case1 => simp at fault
  | case2 start c cs kind n first chars ih =>
    rw [List.cons_append, scan]
    by_cases opened : Text.isQuote c = true ∧ kind = .fault
    · -- a quoted text that is left open swallows what follows, and no quote in there closes it
      obtain ⟨quote, rfl⟩ := opened
      have opened : (quotedLength c cs).1 = false := by
        by_contra closed
        obtain ⟨token, piece⟩ :=
          firstPiece_of_closed quote (n := (quotedLength c cs).2) (Prod.ext (by simpa using closed) rfl)
        rw [piece] at first
        cases first
      have stays : (firstPiece c (cs ++ rest)).1 = .fault := by
        by_contra strict
        have closed := closed_of_firstPiece quote rfl strict
        have unclosed := quotedLength_append_open (show c ∉ rest from fun h => by simp [plain c h] at quote) opened
        rw [closed] at unclosed
        cases unclosed
      exact ⟨_, List.mem_cons_self, stays⟩
    · -- any other piece is cut off as it was, and the fault is this piece or one behind it
      have same : firstPiece c (cs ++ rest) = (kind, n) := by
        rw [← first]
        refine firstPiece_append apart fun quote fault => opened ⟨quote, ?_⟩
        rw [← fault, first]
      have length : n ≤ cs.length := by simpa [first] using firstPiece_le c cs
      rw [same]
      obtain ⟨p, hp, fault⟩ := fault
      rcases List.mem_cons.mp hp with rfl | hp
      · exact ⟨_, List.mem_cons_self, fault⟩
      · obtain ⟨p, hp, fault⟩ := ih ⟨p, hp, fault⟩
        refine ⟨p, List.mem_cons_of_mem _ ?_, fault⟩
        simpa [chars, List.take_append_of_le_length length, List.drop_append_of_le_length length] using hp

theorem sound_append {cs back : List Char} (behind : ∀ c ∈ back, isSkipped c = true) :
    Sound (cs ++ back) ↔ Sound cs := by
  have apart := apart_of_blank behind
  constructor
  · intro sound
    by_contra unsound
    have fault : ∃ p ∈ scan 0 cs, p.kind = .fault := by simpa [Sound] using unsound
    obtain ⟨p, hp, fault⟩ :=
      fault_append apart (fun c hc => (not_continues_of_isSkipped (behind c hc)).2) fault
    exact sound p hp fault
  · intro sound
    exact sound_join sound (sound_of_blank behind) apart

theorem sound_prepend {front cs : List Char} (before : ∀ c ∈ front, isSkipped c = true) :
    Sound (front ++ cs) ↔ Sound cs := by
  induction front with
  | nil => rfl
  | cons c front ih =>
    obtain ⟨blank, before⟩ := List.forall_mem_cons.mp before
    refine (sound_cons_iff (firstPiece_of_skipped blank (front ++ cs))).trans ?_
    simpa using ih before

/-- Blanks around a text add no faults and take none away. -/
theorem sound_blanks {front cs back : List Char} (before : ∀ c ∈ front, isSkipped c = true)
    (behind : ∀ c ∈ back, isSkipped c = true) : Sound (front ++ (cs ++ back)) ↔ Sound cs :=
  (sound_prepend before).trans (sound_append behind)

/-! ## Tokens -/

theorem tokensOf_shift (d : Nat) (previous : Option Nat) (ps : List Piece) :
    tokensOf (previous.map (d + ·)) (ps.map (Piece.shift d)) = (tokensOf previous ps).map (Token.shift d) := by
  induction ps generalizing previous with
  | nil => rfl
  | cons p ps ih =>
    cases kind : p.kind with
    | token k =>
      have joined : (previous.map (d + ·) == some (d + p.start)) = (previous == some p.start) := by
        cases previous <;> simp
      have behind := ih (some (Token.stop ⟨k, p.chars, p.start, previous == some p.start⟩))
      simp only [List.map_cons, tokensOf, Piece.shift, kind, joined, Token.shift, Token.stop, Nat.add_assoc,
        Option.map_some] at behind ⊢
      rw [behind]
    | skipped => simpa [tokensOf, Piece.shift, kind] using ih previous
    | fault => simpa [tokensOf, Piece.shift, kind] using ih previous

theorem tokensFrom_shift (d start : Nat) (previous : Option Nat) (cs : List Char) :
    tokensFrom (previous.map (d + ·)) (d + start) cs = (tokensFrom previous start cs).map (Token.shift d) := by
  unfold tokensFrom
  rw [scan_shift, tokensOf_shift]

/-- Blanks around a text only move its tokens. -/
theorem tokens_blanks {front cs back : List Char} (before : ∀ c ∈ front, isSkipped c = true)
    (behind : ∀ c ∈ back, isSkipped c = true) (finished : Finished cs) :
    tokens (front ++ (cs ++ back)) = (tokens cs).map (Token.shift (Text.byteSize front)) := by
  obtain ⟨last, cut⟩ := tokensFrom_append finished none (Text.byteSize front)
  have nothing := tokensFrom_blanks behind [] last (Text.byteSize front + Text.byteSize cs)
  rw [List.append_nil, tokensFrom_nil] at nothing
  rw [tokens_eq, tokens_eq, tokensFrom_blanks before, Nat.zero_add, cut back (apart_of_blank behind), nothing,
    List.append_nil]
  exact tokensFrom_shift (Text.byteSize front) 0 none cs

end Stylebook.Lexer
