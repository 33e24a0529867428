import Stylebook.Proofs.Transform.Affine
import Stylebook.Proofs.Value.Calls
import Stylebook.Proofs.Value.Dimension
import Stylebook.Proofs.Value.Rows
import Stylebook.Value.Transform

/-!
# Transforms as rows of calls

A transform is written as a row of calls, each of which takes its own words and no others (`takeStep_call`). So what a
row of calls is read as can be said without its words: the transforms that the calls mean, one after the other, or a
flaw if one of them means nothing (`takeSteps_of_calls`). Nothing else is accepted, but for the two words that stand for
the transform that changes nothing (`readTransform_eq_ok_iff`).

Texts that are single calls can be put into a row with spaces between them. If each of them is accepted, so is the row,
and it means all of them from left to right. If one is the call of a function that there is not, or has a number of
arguments that its function does not take, the row is an error (`calls_in_order`).
-/

set_option autoImplicit false

namespace Stylebook.Transform

open Reading

/-! ## Functions -/

/-- The functions that a step can call. -/
inductive Move where
  | rotate
  | scale
  | translate

namespace Move

def name : Move → String
  | rotate => "rotate"
  | scale => "scale"
  | translate => "translate"

/-- How many numbers the function takes. -/
def counts : Move → List Nat
  | rotate => [1]
  | scale | translate => [1, 2]

end Move

/-- There is a function of this name, in any case, that takes so many numbers. -/
def Supported (name : List Char) (count : Nat) : Prop :=
  ∃ m : Move, Text.sameIgnoringCase name m.name.toList = true ∧ count ∈ m.counts

section Meaning

variable {α : Type} [Scalar α] [Trigonometric α] {name : List Char} {xs : List α} {t : Transform α}

/-- What a call means, or why it means nothing. -/
def meaning (name : List Char) (xs : List α) : Except Flaw (Transform α) :=
  ofStep (String.ofList (Text.asciiLower name)) xs

theorem supported_of_meaning (h : meaning name xs = .ok t) : Supported name xs.length := by
  unfold meaning ofStep at h
  split at h
  · exact ⟨.rotate, sameIgnoringCase_of_lower ‹_› rfl, by simp [Move.counts]⟩
  · exact ⟨.scale, sameIgnoringCase_of_lower ‹_› rfl, by simp [Move.counts]⟩
  · exact ⟨.scale, sameIgnoringCase_of_lower ‹_› rfl, by simp [Move.counts]⟩
  · exact ⟨.translate, sameIgnoringCase_of_lower ‹_› rfl, by simp [Move.counts]⟩
  · exact ⟨.translate, sameIgnoringCase_of_lower ‹_› rfl, by simp [Move.counts]⟩
  · split at h <;> cases h

theorem exists_meaning (h : Supported name xs.length) : ∃ t, meaning name xs = .ok t := by
  obtain ⟨m, named, counted⟩ := h
  have function : String.ofList (Text.asciiLower name) = m.name := by
    rw [beq_iff_eq.mp named]
    cases m <;> rfl
  unfold meaning
  rw [function]
  cases m with
  | rotate =>
    obtain ⟨x, rfl⟩ := List.length_eq_one_iff.mp (List.mem_singleton.mp counted)
    exact ⟨_, rfl⟩
  | scale | translate =>
    rcases List.mem_pair.mp counted with one | two
    · obtain ⟨x, rfl⟩ := List.length_eq_one_iff.mp one
      exact ⟨_, rfl⟩
    · obtain ⟨x, y, rfl⟩ := List.length_eq_two.mp two
      exact ⟨_, rfl⟩

/-- A call has a meaning where there is such a function for so many numbers. -/
theorem exists_meaning_iff : (∃ t : Transform α, meaning name xs = .ok t) ↔ Supported name xs.length :=
  ⟨fun ⟨_, h⟩ => supported_of_meaning h, exists_meaning⟩

end Meaning

section Chain

variable {α : Type} [Scalar α] {ms : List (Except Flaw (Transform α))}

/-- A transform with others behind it, or the first flaw among these. -/
def chain (t : Transform α) (ms : List (Except Flaw (Transform α))) : Except Flaw (Transform α) :=
  ms.foldlM (fun t m => m.map t.concat) t

theorem chain_ok (t : Transform α) (us : List (Transform α)) : chain t (us.map .ok) = .ok (us.foldl concat t) := by
  induction us generalizing t with
  | nil => rfl
  | cons u us ih => exact ih (t.concat u)

theorem chain_error {e : Flaw} (flawed : .error e ∈ ms) (t : Transform α) : ∃ e, chain t ms = .error e := by
  induction ms generalizing t with
  | nil => cases flawed
  | cons m ms ih =>
    cases m with
    | error d => exact ⟨d, rfl⟩
    | ok u =>
      rcases List.mem_cons.mp flawed with here | later
      · cases here
      · exact ih later (t.concat u)

end Chain

/-! ## Single calls -/

/-- The words are the call of a function with members in a row. -/
inductive Called {β : Type} (member : Word → β → Prop) (name : List Char) (xs : List β) : List Word → Prop
  | intro {w o z : Word} {ws : List Word} (call : Call w o) (named : w.chars = name) (row : Row true member xs ws)
      (close : z.kind = .parenClose) : Called member name xs (w :: o :: (ws ++ [z]))

theorem Called.relate {β γ : Type} {member : Word → β → Prop} {other : Word → γ → Prop} {relation : β → γ → Prop}
    {name : List Char} {xs : List β} {ws : List Word} (called : Called member name xs ws)
    (each : ∀ w ∈ ws, ∀ x, member w x → ∃ y, relation x y ∧ other w y) :
    ∃ ys, List.Forall₂ relation xs ys ∧ Called other name ys ws := by
  obtain ⟨call, named, row, close⟩ := called
  obtain ⟨ys, all, row⟩ := row.relate fun w hw => each w (by simp [hw])
  exact ⟨ys, all, .intro call named row close⟩

/-- The word stands for the transform that changes nothing. -/
def NamesIdentity (w : Word) : Prop :=
  w.kind = .ident ∧
    (Text.sameIgnoringCase w.chars "identity".toList = true ∨ Text.sameIgnoringCase w.chars "none".toList = true)

theorem not_supported_of_namesIdentity {w : Word} (neutral : NamesIdentity w) (count : Nat) :
    ¬Supported w.chars count := by
  rintro ⟨m, same, -⟩
  have other (word : String) (named : Text.sameIgnoringCase w.chars word.toList = true)
      (distinct : Text.asciiLower m.name.toList ≠ Text.asciiLower word.toList) : False :=
    distinct ((beq_iff_eq.mp same).symm.trans (beq_iff_eq.mp named))
  rcases neutral.2 with named | named
  · exact other _ named (by cases m <;> decide)
  · exact other _ named (by cases m <;> decide)

variable {α : Type} [Scalar α] {name : List Char} {xs : List α} {ts rest : List Token} {ws : List Word}
  {t u : Transform α}

/-- The words are the call of a function with numbers. -/
abbrev CalledOn (name : List Char) (xs : List α) : List Word → Prop :=
  Called (Member Token.looseNumber?) name xs

theorem takeArguments_of_row {front : List Token} {z : Token} (close : z.kind = .parenClose)
    (row : Row true (Member Token.looseNumber?) xs (front.map Token.word)) :
    takeArguments (front ++ z :: rest) = (.ok xs, rest) := by
  have taken := items_of_row readable_looseNumber (ends_cons.mpr close : Reading.Ends (z :: rest)) row
  simp only [takeArguments, taken]

theorem takeArguments_eq_ok (h : takeArguments ts = (.ok xs, rest)) :
    ∃ (front : List Token) (z : Token), ts = front ++ z :: rest ∧ z.kind = .parenClose ∧
      Row true (Member Token.looseNumber?) xs (front.map Token.word) := by
  unfold takeArguments at h
  split at h
  · cases h
  · cases h
  · rename_i values z left taken
    cases h
    obtain ⟨front, rfl, ends, row⟩ := row_of_items readable_looseNumber taken
    exact ⟨front, z, rfl, ends_cons.mp ends, row⟩

variable [Trigonometric α] {m : Except Flaw (Transform α)} {ms : List (Except Flaw (Transform α))}

/-- A step takes the words of its call, and goes on or fails behind them. -/
theorem takeStep_call (called : CalledOn name xs ws) (words : ts.map Token.word = ws) :
    takeStep (ts ++ rest) = (meaning name xs, rest) := by
  obtain ⟨call, rfl, row, close⟩ := called
  simp only [List.map_eq_cons_iff, List.map_eq_append_iff, List.map_eq_nil_iff] at words
  obtain ⟨f, _, rfl, rfl, o, _, rfl, rfl, front, _, rfl, rfl, z, _, rfl, rfl, rfl⟩ := words
  have function : functionName? (f :: o :: (front ++ z :: rest)) = (.ok (some f), front ++ z :: rest) :=
    if_pos ⟨call.name, call.opens⟩
  have arguments : takeArguments (front ++ z :: rest) = (.ok xs, rest) := takeArguments_of_row close row
  simp only [List.cons_append, List.append_assoc, List.nil_append]
  unfold takeStep
  rw [bind_of_ok function]
  exact bind_of_ok arguments _

theorem takeStep_eq_ok (h : takeStep ts = (.ok t, rest)) :
    ∃ front name xs, ts = front ++ rest ∧ CalledOn name xs (front.map Token.word) ∧ meaning name xs = .ok t := by
  obtain ⟨function, behind, named, step⟩ := bind_eq_ok h
  cases function with
  | none => cases step
  | some f =>
    obtain ⟨xs, left, taken, made⟩ := bind_eq_ok step
    obtain ⟨front, z, rfl, close, row⟩ := takeArguments_eq_ok taken
    match ts with
    | [] | [_] => cases named
    | u :: o :: inner =>
      simp only [functionName?] at named
      split at named
      · rename_i call
        cases named
        obtain ⟨meant, rfl⟩ : meaning f.chars xs = .ok t ∧ left = rest := Prod.mk.inj made
        refine ⟨f :: o :: (front ++ [z]), f.chars, xs, by simp, ?_, meant⟩
        simp only [List.map_cons, List.map_append, List.map_nil]
        exact .intro ⟨call.1, call.2⟩ rfl row close
      · cases named

/-! ## Rows of calls -/

/-- The words are calls in a row, which mean this one after the other. -/
inductive Calls : List (Except Flaw (Transform α)) → List Word → Prop
  | nil : Calls [] []
  | cons {name : List Char} {xs : List α} {ws vs : List Word} {ms : List (Except Flaw (Transform α))}
      (first : CalledOn name xs ws) (others : Calls ms vs) : Calls (meaning name xs :: ms) (ws ++ vs)

theorem Calls.exists_first (calls : Calls (m :: ms) ws) :
    ∃ name, ∃ xs : List α, ∃ first others, ws = first ++ others ∧ CalledOn name xs first := by
  cases calls with
  | cons first others => exact ⟨_, _, _, _, rfl, first⟩

theorem takeSteps_cons (filled : ts ≠ []) (t : Transform α) :
    takeSteps t ts = continueWith (takeStep ts) fun u => takeSteps (t.concat u) := by
  rw [takeSteps, if_neg (by simpa using filled)]
  split <;> rename_i taken <;> rw [taken] <;> rfl

/-- Steps up to the end are put together in the order of their calls. -/
theorem takeSteps_of_calls (calls : Calls ms ws) (words : ts.map Token.word = ws) (t : Transform α) :
    (takeSteps t ts).1 = chain t ms := by
  induction calls generalizing ts t with
  | nil =>
    obtain rfl := List.map_eq_nil_iff.mp words
    rw [takeSteps]
    rfl
  | @cons name xs ws vs ms first others ih =>
    obtain ⟨front, rest, rfl, words, behind⟩ := List.map_eq_append_iff.mp words
    have filled : front ++ rest ≠ [] := by
      obtain ⟨⟩ := first
      rintro none
      simp_all
    rw [takeSteps_cons filled, takeStep_call first words]
    cases meant : meaning name xs with
    | error e => rfl
    | ok u => exact ih behind (t.concat u)

theorem calls_of_takeSteps (h : takeSteps t ts = (.ok u, rest)) :
    ∃ us : List (Transform α), Calls (us.map .ok) (ts.map Token.word) ∧ us.foldl concat t = u := by
  fun_induction takeSteps t ts with
  | case1 t ts none =>
    cases h
    rw [List.isEmpty_iff.mp none]
    exact ⟨[], .nil, rfl⟩
  | case2 => cases h
  | case3 t ts _ v behind taken ih =>
    obtain ⟨us, others, rfl⟩ := ih h
    obtain ⟨front, name, xs, rfl, called, meant⟩ := takeStep_eq_ok taken
    refine ⟨v :: us, ?_, rfl⟩
    rw [List.map_append, List.map_cons, ← meant]
    exact .cons called others

/-! ## Whole transforms -/

theorem take_namesIdentity {w : Token} (neutral : NamesIdentity w.word) (ts : List Token) :
    (take (w :: ts) : Except Flaw (Transform α) × List Token) =
      continueWith (finish ts) fun _ => pure identity := by
  obtain ⟨kind, named⟩ := neutral
  have keyword (word : String) : eatKeyword word (w :: ts) =
      if Text.sameIgnoringCase w.chars word.toList = true then (.ok true, ts) else (.ok false, w :: ts) := by
    simp [eatKeyword, isKeyword, show w.kind = .ident from kind]
  unfold take
  by_cases first : Text.sameIgnoringCase w.chars "identity".toList = true
  · rw [bind_of_ok ((keyword _).trans (if_pos first))]
    rfl
  · rw [bind_of_ok ((keyword _).trans (if_neg first))]
    have second : Text.sameIgnoringCase w.chars "none".toList = true := named.resolve_left first
    exact bind_of_ok ((keyword _).trans (if_pos second)) _

theorem take_steps (other : ∀ w ∈ ts.head?, ¬NamesIdentity w.word) :
    (take ts : Except Flaw (Transform α) × List Token) = continueWith (takeStep ts) takeSteps := by
  cases ts with
  | nil => rfl
  | cons w ts =>
    have unnamed (word : String) (among : word = "identity" ∨ word = "none") :
        eatKeyword word (w :: ts) = (.ok false, w :: ts) := by
      refine if_neg fun keyword => other w rfl ?_
      obtain ⟨kind, same⟩ := (Bool.and_eq_true _ _).mp keyword
      refine ⟨beq_iff_eq.mp kind, ?_⟩
      rcases among with rfl | rfl
      · exact .inl same
      · exact .inr same
    unfold take
    rw [bind_of_ok (unnamed _ (.inl rfl))]
    exact bind_of_ok (unnamed _ (.inr rfl)) _

/-- A row of calls is taken as what its calls mean together, if all of them mean something. -/
theorem take_of_calls (calls : Calls (m :: ms) ws) (words : ts.map Token.word = ws) :
    (take ts).1.toOption = (m.bind fun t => chain t ms).toOption := by
  cases calls with
  | @cons name xs ws vs _ first others =>
    obtain ⟨front, rest, rfl, words, behind⟩ := List.map_eq_append_iff.mp words
    by_cases neutral : ∃ w ∈ (front ++ rest).head?, NamesIdentity w.word
    · -- Such a word does not go on with a parenthesis, and there is no function of its name.
      obtain ⟨w, head, neutral⟩ := neutral
      obtain ⟨call, rfl, row, close⟩ := first
      simp only [List.map_eq_cons_iff] at words
      obtain ⟨f, _, rfl, rfl, o, _, rfl, -⟩ := words
      obtain rfl := Option.some.inj head
      cases meant : meaning f.word.chars xs with
      | ok t => exact absurd (supported_of_meaning meant) (not_supported_of_namesIdentity neutral _)
      | error e =>
        rw [List.cons_append, take_namesIdentity neutral]
        rfl
    · have other : ∀ w ∈ (front ++ rest).head?, ¬NamesIdentity w.word := fun w head h => neutral ⟨w, head, h⟩
      rw [take_steps other, takeStep_call first words]
      cases meaning name xs with
      | error e => rfl
      | ok t => exact congrArg Except.toOption (takeSteps_of_calls others behind t)

/-! ## Reading texts -/

section Texts

variable {type : ValueType} {raw : List Char} {x : Value α} {texts : List (List Char)}

theorem readTransform_eq_ok_iff_take :
    readTransform type raw = .ok x ↔
      ∃ ts rest t, Lexer.tokensStrict raw = .ok ts ∧ take ts = (.ok t, rest) ∧ Value.transform t = x := by
  unfold readTransform
  constructor
  · intro h
    cases read : (of type raw take : Except ValueError (Transform α)) with
    | error e =>
      rw [read] at h
      cases h
    | ok t =>
      rw [read] at h
      cases h
      obtain ⟨ts, rest, cut, taken⟩ := exists_of_eq_ok read
      exact ⟨ts, rest, t, cut, taken, rfl⟩
  · rintro ⟨ts, rest, t, cut, taken, rfl⟩
    rw [of_of_tokens cut, taken]
    rfl

/-- **Transforms by their calls.** A text is accepted where its words are calls that mean something, at least one of
them, or where it is a word for the transform that changes nothing. -/
theorem readTransform_eq_ok_iff :
    readTransform type raw = .ok x ↔
      ∃ ws, Lexer.Consists raw ws ∧
        ((∃ w, NamesIdentity w ∧ ws = [w] ∧ x = .transform identity) ∨
          ∃ t, ∃ us : List (Transform α), Calls (.ok t :: us.map .ok) ws ∧ x = .transform (us.foldl concat t)) := by
  rw [readTransform_eq_ok_iff_take]
  constructor
  · rintro ⟨ts, rest, t, cut, taken, rfl⟩
    refine ⟨_, Lexer.consists_iff.mpr ⟨ts, cut, rfl⟩, ?_⟩
    by_cases neutral : ∃ w ∈ ts.head?, NamesIdentity w.word
    · obtain ⟨w, head, neutral⟩ := neutral
      obtain ⟨ts, rfl⟩ := List.head?_eq_some_iff.mp head
      rw [take_namesIdentity neutral] at taken
      cases ts with
      | cons v ts => cases taken
      | nil =>
        cases taken
        exact .inl ⟨w.word, neutral, rfl, rfl⟩
    · rw [take_steps fun w head h => neutral ⟨w, head, h⟩] at taken
      obtain ⟨u, behind, first, others⟩ := continueWith_eq_ok taken
      obtain ⟨us, calls, rfl⟩ := calls_of_takeSteps others
      obtain ⟨front, name, xs, rfl, called, meant⟩ := takeStep_eq_ok first
      refine .inr ⟨u, us, ?_, rfl⟩
      rw [List.map_append, ← meant]
      exact .cons called calls
  · rintro ⟨ws, consists, written⟩
    obtain ⟨ts, cut, rfl⟩ := Lexer.consists_iff.mp consists
    rcases written with ⟨w, neutral, single, rfl⟩ | ⟨t, us, calls, rfl⟩
    · obtain ⟨v, rfl, rfl⟩ := List.map_eq_singleton_iff.mp single
      exact ⟨[v], [], identity, cut, take_namesIdentity neutral [], rfl⟩
    · have taken : (take ts).1 = .ok (us.foldl concat t) := by
        rw [← toOption_eq_some_iff, take_of_calls calls rfl]
        exact toOption_eq_some_iff.mpr (chain_ok t us)
      exact ⟨ts, _, _, cut, Prod.ext taken rfl, rfl⟩

/-- Calls in a row are read as what they mean together. -/
theorem readTransform_of_calls (consists : Lexer.Consists raw ws) (calls : Calls (m :: ms) ws) :
    (readTransform type raw).toOption = (m.bind fun t => chain t ms).toOption.map .transform := by
  obtain ⟨ts, cut, rfl⟩ := Lexer.consists_iff.mp consists
  unfold readTransform
  rw [of_of_tokens cut, ← take_of_calls calls rfl]
  cases (take (α := α) ts).1 <;> rfl

/-- The text is a single call, with this meaning. -/
def Means (cs : List Char) (m : Except Flaw (Transform α)) : Prop :=
  ∃ ws name, ∃ xs : List α, Lexer.Consists cs ws ∧ CalledOn name xs ws ∧ m = meaning name xs

theorem calls_of_means (all : List.Forall₂ Means texts ms) :
    ∃ ws, Lexer.Consists (List.intercalate [' '] texts) ws ∧ Calls ms ws := by
  have listed : ∃ wss, List.Forall₂ Lexer.Consists texts wss ∧ Calls ms wss.flatten := by
    induction all with
    | nil => exact ⟨[], .nil, .nil⟩
    | cons first _ ih =>
      obtain ⟨ws, name, xs, consists, called, rfl⟩ := first
      obtain ⟨wss, others, calls⟩ := ih
      exact ⟨ws :: wss, .cons consists others, .cons called calls⟩
  obtain ⟨wss, consist, calls⟩ := listed
  exact ⟨_, Lexer.consists_intercalate rfl consist, calls⟩

/-- Single calls with spaces between them are read as what they mean together. -/
theorem readTransform_intercalate (all : List.Forall₂ Means texts (m :: ms)) :
    (readTransform type (List.intercalate [' '] texts)).toOption =
      (m.bind fun t => chain t ms).toOption.map .transform := by
  obtain ⟨ws, consists, calls⟩ := calls_of_means all
  exact readTransform_of_calls consists calls

/-- A single call is read as what it means. -/
theorem Means.read_eq_ok_iff {cs : List Char} (means : Means cs m) :
    readTransform type cs = .ok (.transform t) ↔ m = .ok t := by
  have alone : (readTransform type (List.intercalate [' '] [cs])).toOption = _ :=
    readTransform_intercalate (.cons means .nil)
  rw [List.intercalate_singleton] at alone
  rw [← toOption_eq_some_iff, alone, ← toOption_eq_some_iff]
  cases m <;> simp [Except.toOption, Except.bind, chain, pure, Except.pure]

/-! ## Texts that are single calls -/

/-- The text is the call of a function with numbers in any unit, which have these texts. -/
def IsCall (cs name : List Char) (vs : List (List Char)) : Prop :=
  ∃ ws, Lexer.Consists cs ws ∧ Called IsQuantity name vs ws

theorem isCall_call {name inside : List Char} {vs : List (List Char)} {ws : List Word}
    (named : Lexer.isName name = true) (consists : Lexer.Consists inside ws) (row : Row true IsQuantity vs ws) :
    IsCall (Text.call name inside) name vs :=
  ⟨_, Lexer.consists_call named consists, .intro ⟨rfl, rfl⟩ rfl row rfl⟩

/-- The words of the text are one call: what is opened behind a name is closed at the end and not before. -/
def IsSingle (cs : List Char) : Prop :=
  ∃ f o inner z, Lexer.Consists cs (f :: o :: (inner ++ [z])) ∧ Call f o ∧ z.kind = .parenClose ∧
    ∀ w ∈ inner, w.kind ≠ .parenClose

variable {cs : List Char} {us : List (Transform α)}

theorem IsCall.isSingle {vs : List (List Char)} (call : IsCall cs name vs) : IsSingle cs := by
  obtain ⟨ws, consists, ⟨call, -, row, close⟩⟩ := call
  refine ⟨_, _, _, _, consists, call, close, row.forall_mem ?_ ?_⟩
  · intro w comma
    simp [comma]
  · intro w v quantity
    cases quantity <;> simp

/-- A single call that is accepted has numbers for its arguments. -/
theorem IsSingle.isCall (single : IsSingle cs) (accepted : readTransform type cs = .ok x) :
    ∃ name vs, IsCall cs name vs := by
  obtain ⟨f, o, inner, z, consists, -, close, within⟩ := single
  obtain ⟨ws, consists', written⟩ := readTransform_eq_ok_iff.mp accepted
  have words : ws = f :: o :: (inner ++ [z]) := consists'.2.symm.trans consists.2
  rcases written with ⟨w, -, one, -⟩ | ⟨t, us, calls, -⟩
  · simp [one] at words
  · obtain ⟨name, xs, first, others, rfl, called⟩ := calls.exists_first
    have quantity : ∀ w ∈ first, ∀ y : α, Member Token.looseNumber? w y →
        ∃ v, Scalar.read? v = some y ∧ IsQuantity w v := by
      intro w hw y value
      have there : w ∈ Lexer.words cs := by
        rw [consists'.2]
        exact List.mem_append_left _ hw
      exact exists_isQuantity (Lexer.mem_pattern_of_mem_words there) value
    obtain ⟨vs, -, called'⟩ := called.relate quantity
    obtain @⟨_, _, last, front, call, named, row, close'⟩ := called'
    -- What stood behind the call would put its closing parenthesis inside.
    obtain rfl : others = [] := by
      rcases others.eq_nil_or_concat with none | ⟨init, w, rfl⟩
      · exact none
      · have behind := (List.cons.inj (List.cons.inj words).2).2
        have same : (front ++ last :: init) ++ [w] = inner ++ [z] := by simpa using behind
        obtain rfl := List.append_inj_left' same rfl
        exact absurd close' (within last (by simp))
    rw [List.append_nil] at consists'
    exact ⟨name, vs, _, consists', .intro call named row close'⟩

/-- If the calls are accepted one by one, their meanings are those that they are read as. -/
theorem eq_map_ok_of_read (all : List.Forall₂ Means texts ms)
    (read : List.Forall₂ (fun cs t => readTransform type cs = .ok (.transform t)) texts us) : ms = us.map .ok := by
  induction all generalizing us with
  | nil =>
    cases read
    rfl
  | cons first _ ih =>
    cases read with
    | cons here others => rw [List.map_cons, first.read_eq_ok_iff.mp here, ih others]

/-- A call that is not accepted has a flaw for its meaning. -/
theorem exists_error_of_read (all : List.Forall₂ Means texts ms) (member : cs ∈ texts)
    (refused : ∀ t : Transform α, readTransform type cs ≠ .ok (.transform t)) : ∃ e, .error e ∈ ms := by
  induction all with
  | nil => cases member
  | @cons _ m _ ms first _ ih =>
    rcases List.mem_cons.mp member with rfl | later
    · cases m with
      | error e => exact ⟨e, List.mem_cons_self⟩
      | ok t => exact absurd (first.read_eq_ok_iff.mpr rfl) (refused t)
    · obtain ⟨e, flawed⟩ := ih later
      exact ⟨e, List.mem_cons_of_mem _ flawed⟩

variable [Scalar.ReadsNumbers α] {vs : List (List Char)}

theorem IsCall.means (call : IsCall cs name vs) :
    ∃ m : Except Flaw (Transform α), Means cs m ∧ ((∃ t, m = .ok t) ↔ Supported name vs.length) := by
  obtain ⟨ws, consists, called⟩ := call
  have number : ∀ w ∈ ws, ∀ v, IsQuantity w v → ∃ x : α, Scalar.read? v = some x ∧ Member Token.looseNumber? w x := by
    intro w _ v quantity
    obtain ⟨x, value⟩ := Scalar.ReadsNumbers.exists_read? (α := α) quantity.figure
    exact ⟨x, value, quantity.looseNumber?.trans value⟩
  obtain ⟨xs, read, called⟩ := called.relate number
  refine ⟨meaning name xs, ⟨ws, name, xs, consists, called, rfl⟩, ?_⟩
  rw [exists_meaning_iff, read.length_eq]

/-- A call is accepted where its function takes so many numbers. -/
theorem IsCall.accepted_iff (call : IsCall cs name vs) :
    (∃ t : Transform α, readTransform type cs = .ok (.transform t)) ↔ Supported name vs.length := by
  obtain ⟨m, means, supported⟩ := call.means (α := α)
  simp only [means.read_eq_ok_iff, supported]

/-- What is accepted as a single call are the calls that are supported. -/
theorem isSingle_and_accepted_iff :
    (IsSingle cs ∧ ∃ t : Transform α, readTransform type cs = .ok (.transform t)) ↔
      ∃ name vs, IsCall cs name vs ∧ Supported name vs.length := by
  constructor
  · rintro ⟨single, t, accepted⟩
    obtain ⟨name, vs, call⟩ := single.isCall accepted
    exact ⟨name, vs, call, call.accepted_iff.mp ⟨t, accepted⟩⟩
  · rintro ⟨name, vs, call, supported⟩
    exact ⟨call.isSingle, call.accepted_iff.mpr supported⟩

theorem exists_means (each : ∀ cs ∈ texts, ∃ name vs, IsCall cs name vs) :
    ∃ ms : List (Except Flaw (Transform α)), List.Forall₂ Means texts ms := by
  induction texts with
  | nil => exact ⟨[], .nil⟩
  | cons cs texts ih =>
    obtain ⟨name, vs, call⟩ := each cs List.mem_cons_self
    obtain ⟨m, first, -⟩ := call.means (α := α)
    obtain ⟨ms, others⟩ := ih fun cs hcs => each cs (List.mem_cons_of_mem _ hcs)
    exact ⟨m :: ms, .cons first others⟩

/-- Accepted calls in a row are accepted, and put together from left to right. -/
theorem readTransform_row (each : ∀ cs ∈ texts, ∃ name vs, IsCall cs name vs)
    (read : List.Forall₂ (fun cs t => readTransform type cs = .ok (.transform t)) texts (t :: us)) :
    readTransform type (List.intercalate [' '] texts) = .ok (.transform (us.foldl concat t)) := by
  obtain ⟨ms, all⟩ := exists_means (α := α) each
  obtain rfl := eq_map_ok_of_read all read
  rw [← toOption_eq_some_iff, readTransform_intercalate all]
  exact congrArg (Option.map _) (toOption_eq_some_iff.mpr (chain_ok t us))

/-- One call that is not supported makes the row an error. -/
theorem readTransform_row_error (each : ∀ cs ∈ texts, ∃ name vs, IsCall cs name vs) (member : cs ∈ texts)
    (call : IsCall cs name vs) (unsupported : ¬Supported name vs.length) :
    ∃ e, (readTransform type (List.intercalate [' '] texts) : Except ValueError (Value α)) = .error e := by
  obtain ⟨ms, all⟩ := exists_means (α := α) each
  have refused (t : Transform α) : readTransform type cs ≠ .ok (.transform t) :=
    fun read => unsupported (call.accepted_iff.mp ⟨t, read⟩)
  obtain ⟨e, flawed⟩ := exists_error_of_read all member refused
  cases ms with
  | nil => cases flawed
  | cons m ms =>
    have together : ∃ e, (m.bind fun t => chain t ms) = .error e := by
      cases m with
      | error e => exact ⟨e, rfl⟩
      | ok t =>
        rcases List.mem_cons.mp flawed with here | later
        · cases here
        · exact chain_error later t
    rw [← toOption_eq_none_iff, readTransform_intercalate all, toOption_eq_none_iff.mpr together]
    rfl

end Texts

/-! ## Steps in order -/

/-- Sine and cosine of the right angles, exactly; no other angle turns anything. -/
@[reducible] def rightAngles : Trigonometric Rat where
  sinCos degrees :=
    if degrees = 90 then (1, 0) else if degrees = 180 then (0, -1) else if degrees = 270 then (-1, 0) else (0, 1)

/-- **Calls apply from left to right.** What is accepted as a single call are the calls with numbers whose function
takes so many of them. Calls in a row, with a space between any two, are accepted if each of them is, and are put
together from the left; one that is not supported makes the row an error. To put transforms together is to apply one and
then the other, so a row that is accepted maps every point by its steps in the order in which they are written. -/
theorem calls_in_order {α : Type} [Scalar α] [Trigonometric α] [Scalar.ReadsNumbers α] (type : ValueType) :
    (∀ cs, (IsSingle cs ∧ ∃ t : Transform α, readTransform type cs = .ok (.transform t)) ↔
      ∃ name vs, IsCall cs name vs ∧ Supported name vs.length) ∧
    (∀ cs name vs, IsCall cs name vs →
      ((∃ t : Transform α, readTransform type cs = .ok (.transform t)) ↔ Supported name vs.length)) ∧
    (∀ texts, (∀ cs ∈ texts, ∃ name vs, IsCall cs name vs) →
      (∀ (t : Transform α) us,
        List.Forall₂ (fun cs t => readTransform type cs = .ok (.transform t)) texts (t :: us) →
          readTransform type (List.intercalate [' '] texts) = .ok (.transform (us.foldl concat t))) ∧
      ((∃ cs ∈ texts, ∃ name vs, IsCall cs name vs ∧ ¬Supported name vs.length) →
        ∃ e, (readTransform type (List.intercalate [' '] texts) : Except ValueError (Value α)) = .error e)) ∧
    (∀ (t u : Transform Rat) p, (t.concat u).apply p = u.apply (t.apply p)) ∧
    (∀ t u v : Transform Rat, (t.concat u).concat v = t.concat (u.concat v)) ∧
    (∀ t : Transform Rat, identity.concat t = t ∧ t.concat identity = t) ∧
    ∀ [Trigonometric Rat] (texts : List (List Char)), (∀ cs ∈ texts, ∃ name vs, IsCall cs name vs) →
      ∀ (t : Transform Rat) us,
        List.Forall₂ (fun cs t => readTransform type cs = .ok (.transform t)) texts (t :: us) →
          ∃ s, readTransform type (List.intercalate [' '] texts) = .ok (.transform s) ∧
            ∀ p, s.apply p = (t :: us).foldl (fun p u => u.apply p) p := by
  refine ⟨fun cs => isSingle_and_accepted_iff, fun cs name vs call => call.accepted_iff,
    fun texts each => ⟨fun t us => readTransform_row each, ?_⟩, apply_concat, concat_assoc,
    fun t => ⟨t.identity_concat, t.concat_identity⟩, ?_⟩
  · rintro ⟨cs, member, name, vs, call, unsupported⟩
    exact readTransform_row_error each member call unsupported
  · intro _ texts each t us read
    exact ⟨us.foldl concat t, readTransform_row each read, fun p => t.apply_foldl_concat p us⟩

/-- The unit square is stretched before it is turned. -/
theorem calls_in_order_turned :
    (IsCall "scale(2, 3)".toList "scale".toList ["2".toList, "3".toList] ∧
        @readTransform Rat _ rightAngles .transform "scale(2, 3)".toList = .ok (.transform ⟨2, 0, 0, 3, 0, 0⟩)) ∧
      (IsCall "Rotate(90deg)".toList "Rotate".toList ["90".toList] ∧
        @readTransform Rat _ rightAngles .transform "Rotate(90deg)".toList = .ok (.transform ⟨0, 1, -1, 0, 0, 0⟩)) ∧
      (IsCall "skew(90deg)".toList "skew".toList ["90".toList] ∧ ¬Supported "skew".toList 1) ∧
      (∃ s, @readTransform Rat _ rightAngles .transform "scale(2, 3) Rotate(90deg)".toList = .ok (.transform s) ∧
        s.apply ⟨1, 1⟩ = ⟨-3, 2⟩) ∧
      ∃ e, @readTransform Rat _ rightAngles .transform "scale(2, 3) skew(90deg)".toList = .error e := by
  have two : "2".toList ∈ TokenKind.number.pattern :=
    Lexer.mem_pattern_of_recognize (show Lexer.recognize '2' [] = (some .number, 0) from rfl)
  have three : "3".toList ∈ TokenKind.number.pattern :=
    Lexer.mem_pattern_of_recognize (show Lexer.recognize '3' [] = (some .number, 0) from rfl)
  have ninety : "90".toList ∈ TokenKind.number.pattern :=
    Lexer.mem_pattern_of_recognize (show Lexer.recognize '9' ['0'] = (some .number, 1) from rfl)
  have degrees : "deg".toList ∈ Pattern.unit := Pattern.mem_unit.mpr (.inr ⟨by simp, List.all_eq_true.mp rfl⟩)
  have angle : Lexer.Consists "90deg".toList [⟨.dimension, "90deg".toList⟩] :=
    Lexer.consists_of_mem_pattern (dimension_of_number ninety degrees)
  have right : Row true IsQuantity ["90".toList] [⟨.dimension, "90deg".toList⟩] :=
    .cons (.dimension ninety degrees) .nil
  have factors : Row true IsQuantity ["2".toList, "3".toList]
      [⟨.number, "2".toList⟩, ⟨.comma, [',']⟩, ⟨.number, "3".toList⟩] :=
    .cons (.number two) (.cons (s := [⟨.comma, [',']⟩]) (.comma rfl) (.number three) .nil)
  have scaling : IsCall "scale(2, 3)".toList "scale".toList ["2".toList, "3".toList] :=
    show IsCall (Text.call "scale".toList (Text.withArgument "2".toList "3".toList)) _ _ from
      isCall_call (by decide) ((Lexer.consists_of_mem_pattern two).argument three) factors
  have turning : IsCall "Rotate(90deg)".toList "Rotate".toList ["90".toList] :=
    show IsCall (Text.call "Rotate".toList "90deg".toList) _ _ from isCall_call (by decide) angle right
  have skewing : IsCall "skew(90deg)".toList "skew".toList ["90".toList] :=
    show IsCall (Text.call "skew".toList "90deg".toList) _ _ from isCall_call (by decide) angle right
  have unsupported : ¬Supported "skew".toList 1 := by
    rintro ⟨m, same, -⟩
    cases m <;> exact absurd same (by decide)
  have scaled : @readTransform Rat _ rightAngles .transform "scale(2, 3)".toList =
      .ok (.transform ⟨2, 0, 0, 3, 0, 0⟩) := by
    have taken : Reading.of .transform "scale(2, 3)".toList (@take Rat _ rightAngles) = .ok ⟨2, 0, 0, 3, 0, 0⟩ := by
      decide +kernel
    exact congrArg (Except.map Value.transform) taken
  have turned : @readTransform Rat _ rightAngles .transform "Rotate(90deg)".toList =
      .ok (.transform ⟨0, 1, -1, 0, 0, 0⟩) := by
    have taken : Reading.of .transform "Rotate(90deg)".toList (@take Rat _ rightAngles) = .ok ⟨0, 1, -1, 0, 0, 0⟩ := by
      decide +kernel
    exact congrArg (Except.map Value.transform) taken
  obtain ⟨-, -, rows, -, -, -, maps⟩ := @calls_in_order Rat _ rightAngles _ .transform
  refine ⟨⟨scaling, scaled⟩, ⟨turning, turned⟩, ⟨skewing, unsupported⟩, ?_, ?_⟩
  · have each : ∀ cs ∈ ["scale(2, 3)".toList, "Rotate(90deg)".toList], ∃ name vs, IsCall cs name vs :=
      List.forall_mem_cons.mpr ⟨⟨_, _, scaling⟩, List.forall_mem_singleton.mpr ⟨_, _, turning⟩⟩
    obtain ⟨s, read, order⟩ := @maps rightAngles _ each _ _ (.cons scaled (.cons turned .nil))
    exact ⟨s, read, (order ⟨1, 1⟩).trans (by decide +kernel)⟩
  · have each : ∀ cs ∈ ["scale(2, 3)".toList, "skew(90deg)".toList], ∃ name vs, IsCall cs name vs :=
      List.forall_mem_cons.mpr ⟨⟨_, _, scaling⟩, List.forall_mem_singleton.mpr ⟨_, _, skewing⟩⟩
    exact (rows _ each).2 ⟨_, List.mem_pair.mpr (.inr rfl), _, _, skewing, unsupported⟩

end Stylebook.Transform
