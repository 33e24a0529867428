import Stylebook.Proofs.Selector.Written

/-!
# The written form as a canonical form

What the reader accepts, it also writes in a form that reads back, so that two accepted texts mean the same selector
exactly if that selector is written the same way (`Selector.parse_canonical`). The converse question, which selectors
can be written at all, has one exception throughout: an identifier that starts like a colour. The lexer takes three to
eight hexadecimal digits behind a number sign for a colour, whatever follows, and this is felt in two places.

* Within a compound the colour is cut off the name, so an identifier can be written if it does not start with three
  hexadecimal digits or is a colour as a whole (`Compound.parse_text_iff`).
* At the start of a compound the colour is read as an identifier, but it is not among the tokens that start a further
  compound of a chain. Two selectors can be joined by a blank if the second does not start with a colour
  (`Selector.parse_joined`), and always by a greater-than sign.
-/

set_option autoImplicit false

namespace Stylebook

open Lexer

/-! ## Compounds made of names -/

/-- The name of a simple selector, if it has one, is a name to the lexer. -/
def Simple.Named : Simple → Prop
  | .universal => True
  | .element name | .className name | .identifier name | .pseudo name => isName name.toList = true

/-- A mark in front of its name joins a simple selector to the one before it. -/
def Simple.Marked : Simple → Prop
  | .element _ | .universal => False
  | .className _ | .identifier _ | .pseudo _ => True

/-- Text behind a number sign that starts like a colour is a colour as a whole. -/
def ColorOrName (name : List Char) : Prop :=
  3 ≤ run isHexDigit name → name.length ≤ 8 ∧ ∀ d ∈ name, isHexDigit d = true

theorem Simple.extendsCompound_of_marked {s : Simple} (marked : s.Marked) : s.lead.extendsCompound = true := by
  cases s with
  | element name => exact absurd marked id
  | universal => exact absurd marked id
  | className name => rfl
  | pseudo name => rfl
  | identifier name =>
    show (if run isHexDigit name.toList < 3 then TokenKind.hash else .hexColor).extendsCompound = true
    split <;> rfl

theorem Simple.readable_iff_of_named {s : Simple} (named : s.Named) :
    s.Readable ↔ ∀ name, s = .identifier name → ColorOrName name.toList := by
  cases s with
  | element name => exact iff_of_true named (fun _ other => nomatch other)
  | universal => exact iff_of_true trivial (fun _ other => nomatch other)
  | className name => exact iff_of_true named (fun _ other => nomatch other)
  | pseudo name => exact iff_of_true named (fun _ other => nomatch other)
  | identifier name =>
    by_cases few : run isHexDigit name.toList < 3
    · have readable : (Simple.identifier name).Readable := by
        simp only [Readable, few, if_true]
        exact named
      refine ⟨fun _ name' same many => ?_, fun _ => readable⟩
      cases same
      omega
    · simp only [Readable, few, if_false]
      constructor
      · rintro whole name' same -
        cases same
        exact whole
      · intro whole
        exact whole name rfl (by omega)

theorem Compound.readable_iff {c : Compound} (named : ∀ s ∈ c.simples, s.Named) (marked : ∀ s ∈ c.tail, s.Marked) :
    c.Readable ↔ ∀ name, .identifier name ∈ c.simples → ColorOrName name.toList := by
  constructor
  · rintro ⟨head, tail⟩ name member
    have readable : (Simple.identifier name).Readable := by
      rcases List.mem_cons.mp member with first | behind
      · exact first ▸ head
      · exact (tail _ behind).1
    exact (Simple.readable_iff_of_named (named _ member)).mp readable name rfl
  · intro colors
    have readable (s : Simple) (member : s ∈ c.simples) : s.Readable := by
      refine (Simple.readable_iff_of_named (named s member)).mpr fun name same => ?_
      exact colors name (same ▸ member)
    exact ⟨readable c.head List.mem_cons_self, fun s behind =>
      ⟨readable s (List.mem_cons_of_mem _ behind), Simple.extendsCompound_of_marked (marked s behind)⟩⟩

/-- **A compound made of names is read back exactly if its identifiers keep clear of colours.** -/
theorem Compound.parse_text_iff {c : Compound} (named : ∀ s ∈ c.simples, s.Named) (marked : ∀ s ∈ c.tail, s.Marked) :
    Selector.parse (Selector.text ⟨c, []⟩) = .ok ⟨c, []⟩ ↔
      ∀ name, .identifier name ∈ c.simples → ColorOrName name.toList := by
  rw [← readable_iff named marked]
  constructor
  · intro parsed
    exact (Selector.readable_of_parse parsed).head
  · intro readable
    exact Selector.parse_text ⟨readable, by simp⟩

theorem Compound.parse_text_iff_add :
    Selector.parse (Selector.text ⟨⟨.element "Button", [.identifier "add", .className "a-b", .pseudo "_x"]⟩, []⟩) =
      .ok ⟨⟨.element "Button", [.identifier "add", .className "a-b", .pseudo "_x"]⟩, []⟩ := by
  refine (parse_text_iff ?_ ?_).mpr fun name member _ => ?_
  · simp only [simples, List.forall_mem_cons, Simple.Named]
    exact ⟨by decide, by decide, by decide, by decide, List.forall_mem_nil _⟩
  · simp [Simple.Marked]
  · obtain rfl : name = "add" := by simpa [simples] using member
    exact ⟨by decide, List.all_eq_true.mp (by decide)⟩

/-- The identifier `addx` starts with the colour `#add`: its written form says an element `x` inside `#add`. -/
theorem Compound.parse_text_colored :
    isName "addx".toList = true ∧
      Selector.parse (Selector.text ⟨⟨.identifier "addx", []⟩, []⟩) =
        .ok ⟨⟨.identifier "add", []⟩, [(.descendant, ⟨.element "x", []⟩)]⟩ := by
  decide +kernel

/-! ## Selectors in a row -/

theorem Selector.toList_text (s : Selector) : s.text.toList = s.chars :=
  String.toList_ofList

theorem Selector.text_link (s : Selector) (c : Combinator) (t : Selector) :
    (s.link c t).text = s.text ++ String.ofList c.chars ++ t.text := by
  rw [← String.toList_inj]
  simp [toList_text, chars, parts_link, SelectorPart.chars]

theorem Selector.Readable.link {s t : Selector} {c : Combinator} (front : s.Readable) (back : t.Readable)
    (joins : c.Joins t.head) : (s.link c t).Readable := by
  refine ⟨front.head, fun link member => ?_⟩
  rcases List.mem_append.mp member with before | here
  · exact front.tail link before
  rcases List.mem_cons.mp here with rfl | behind
  · exact ⟨back.head, joins⟩
  · exact back.tail link behind

theorem Simple.startsCompound_lead {s : Simple}
    (plain : ∀ name, s = .identifier name → run isHexDigit name.toList < 3) : s.lead.startsCompound = true := by
  cases s with
  | identifier name =>
    have hash : (Simple.identifier name).lead = .hash := if_pos (plain name rfl)
    rw [hash]
    rfl
  | _ => rfl

/-- A selector whose first identifier starts like a colour is written with a colour in front. -/
theorem Selector.tokensFrom_colored {t : Selector} {name : String} (readable : t.Readable)
    (first : t.head.head = .identifier name) (color : 3 ≤ run isHexDigit name.toList) (previous : Option Nat)
    (start : Nat) :
    ∃ joined ts, tokensFrom previous start t.chars = ⟨.hexColor, '#' :: name.toList, start, joined⟩ :: ts := by
  have whole : ColorOrName name.toList := by
    have head := readable.head.head
    rw [first] at head
    simp only [Simple.Readable, Nat.not_lt.mpr color, if_false] at head
    exact fun _ => head
  obtain ⟨atMost, hex⟩ := whole color
  have atLeast : 3 ≤ name.toList.length := Nat.le_trans color (run_le _ _)
  have nothing : Parted [] := by simp [Parted]
  have stop := Compound.stop_chars (fun s hs => (readable.head.tail s hs).2) (parted_tailChars t.tail nothing)
  have text : t.chars = '#' :: (name.toList ++ (t.head.tail.flatMap Simple.chars ++ (tailChars t.tail ++ []))) := by
    rw [chars_eq, Compound.chars, Compound.simples, first]
    simp [Simple.chars]
  rw [text, tokensFrom_color hex atLeast atMost (stop_of_imp stop fun _ => isNameChar_of_isHexDigit)]
  exact ⟨_, _, rfl⟩

theorem Selector.parse_blank_colored {s t : Selector} {name : String} (front : s.Readable) (back : t.Readable)
    (first : t.head.head = .identifier name) (color : 3 ≤ run isHexDigit name.toList) :
    parse (s.text ++ " " ++ t.text) =
      .error (.unexpected (Text.byteSize s.chars + 1) .endOfSelector .hexColor ("#" ++ name)) := by
  have ends : Ends (' ' :: t.chars) := by
    refine ⟨fun c hc => ?_, fun previous start u hu => ?_⟩
    · obtain rfl : ' ' = c := by simpa using hc
      exact .inl rfl
    · obtain ⟨joined, ts, cut⟩ := tokensFrom_colored back first color previous (start + 1)
      rw [tokensFrom_blank, cut] at hu
      obtain rfl := Option.some.inj hu
      exact ⟨by simp, rfl⟩
  obtain ⟨joined, ts, cut⟩ :=
    tokensFrom_colored back first color (some (Text.byteSize s.chars)) (Text.byteSize s.chars + 1)
  have found := read_chars front ends none 0
  rw [Nat.zero_add, tokensFrom_blank, cut] at found
  have text : (s.text ++ " " ++ t.text).toList = s.chars ++ ' ' :: t.chars := by simp [toList_text]
  have word : String.ofList ('#' :: name.toList) = "#" ++ name := by
    rw [← String.toList_inj]
    simp
  rw [parse, text, tokens_eq, found, ← word]
  rfl

/-- **Selectors compose with combinators**: always as a child, and as a descendant unless the second one starts with a
colour, which is then what the first one is followed by. -/
theorem Selector.parse_joined {a b : String} {s t : Selector} (front : parse a = .ok s) (back : parse b = .ok t) :
    (∃ u, parse (s.text ++ " > " ++ t.text) = .ok u ∧ u.parts = s.parts ++ .combinator .child :: t.parts) ∧
    ((∀ name, t.head.head = .identifier name → run isHexDigit name.toList < 3) →
      ∃ u, parse (s.text ++ " " ++ t.text) = .ok u ∧ u.parts = s.parts ++ .combinator .descendant :: t.parts) ∧
    ∀ name, t.head.head = .identifier name → 3 ≤ run isHexDigit name.toList →
      parse (s.text ++ " " ++ t.text) =
        .error (.unexpected (Text.byteSize s.text.toList + 1) .endOfSelector .hexColor ("#" ++ name)) := by
  have front := readable_of_parse front
  have back := readable_of_parse back
  refine ⟨?_, fun plain => ?_, fun name first color => ?_⟩
  · have linked := parse_text (front.link (c := .child) back trivial)
    exact ⟨_, by rwa [text_link] at linked, parts_link ..⟩
  · have linked := parse_text (front.link (c := .descendant) back (Simple.startsCompound_lead plain))
    exact ⟨_, by rwa [text_link] at linked, parts_link ..⟩
  · rw [toList_text]
    exact parse_blank_colored front back first color

theorem Selector.parse_joined_add :
    (∃ u, parse ("a" ++ " > " ++ "#add.b") = .ok u ∧
      u.parts = [.compound ⟨.element "a", []⟩, .combinator .child, .compound ⟨.identifier "add", [.className "b"]⟩]) ∧
    parse ("a" ++ " " ++ "#add.b") = .error (.unexpected 2 .endOfSelector .hexColor "#add") := by
  have front : parse "a" = .ok ⟨⟨.element "a", []⟩, []⟩ := by decide +kernel
  have back : parse "#add.b" = .ok ⟨⟨.identifier "add", [.className "b"]⟩, []⟩ := by decide +kernel
  obtain ⟨child, -, colored⟩ := parse_joined front back
  exact ⟨child, colored "add" rfl (by decide)⟩

/-- The selectors `a` and `#add` are accepted each, and as a child, but not with a blank in between. -/
theorem Selector.parse_blank_add :
    parse "a" = .ok ⟨⟨.element "a", []⟩, []⟩ ∧ parse "#add" = .ok ⟨⟨.identifier "add", []⟩, []⟩ ∧
      parse (Selector.text ⟨⟨.element "a", []⟩, []⟩ ++ " " ++ Selector.text ⟨⟨.identifier "add", []⟩, []⟩) =
        .error (.unexpected 2 .endOfSelector .hexColor "#add") := by
  decide +kernel

/-! ## One written form for each selector -/

/-- Compounds and combinators by turns, a compound first and last, and no compound empty. -/
inductive Alternating : List SelectorPart → Prop
  | single {c : Compound} (nonempty : c.simples ≠ []) : Alternating [.compound c]
  | link {c : Compound} {k : Combinator} {parts : List SelectorPart} (nonempty : c.simples ≠ [])
      (behind : Alternating parts) : Alternating (.compound c :: .combinator k :: parts)

theorem Selector.alternating_parts (s : Selector) : Alternating s.parts := by
  obtain ⟨head, tail⟩ := s
  induction tail generalizing head with
  | nil => exact .single (List.cons_ne_nil _ _)
  | cons link tail ih => exact .link (List.cons_ne_nil _ _) (ih link.2)

theorem Selector.Readable.text_inj {s t : Selector} (hs : s.Readable) (ht : t.Readable) : s.text = t.text ↔ s = t := by
  refine ⟨fun same => ?_, congrArg text⟩
  have parsed := parse_text hs
  rw [same, parse_text ht] at parsed
  exact (Except.ok.inj parsed).symm

/-- **The written form is a canonical form of what is accepted.** -/
theorem Selector.parse_canonical {a : String} {s : Selector} (accepted : parse a = .ok s) :
    parse s.text = .ok s ∧ (∀ b t, parse b = .ok t → (s = t ↔ s.text = t.text)) ∧ Alternating s.parts := by
  have readable := readable_of_parse accepted
  refine ⟨parse_text readable, fun b t accepted' => ?_, alternating_parts s⟩
  exact (readable.text_inj (readable_of_parse accepted')).symm

/-- The text holds a fault, a chain without blanks, and a colour that the lexer cuts off a name. -/
theorem Selector.parse_canonical_cut :
    parse "é*>#addx!.b" = .ok ⟨⟨.universal, []⟩,
        [(.child, ⟨.identifier "add", []⟩), (.descendant, ⟨.element "x", []⟩), (.descendant, ⟨.className "b", []⟩)]⟩ ∧
      parse "* > #add x .b" = .ok ⟨⟨.universal, []⟩,
        [(.child, ⟨.identifier "add", []⟩), (.descendant, ⟨.element "x", []⟩),
          (.descendant, ⟨.className "b", []⟩)]⟩ := by
  have accepted : parse "é*>#addx!.b" = .ok ⟨⟨.universal, []⟩,
      [(.child, ⟨.identifier "add", []⟩), (.descendant, ⟨.element "x", []⟩),
        (.descendant, ⟨.className "b", []⟩)]⟩ := by
    decide +kernel
  exact ⟨accepted, (parse_canonical accepted).1⟩

end Stylebook
