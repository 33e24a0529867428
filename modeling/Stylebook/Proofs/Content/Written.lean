import Stylebook.Proofs.Content.Values
import Stylebook.Proofs.Selector.Written
import Stylebook.Text.Split

/-!
# Style sheets and their written form

A sheet is written as its definitions and then its rules, and what is written is read back
(`Content.parse_sheetChars`). The conditions are those of the parts: names are names, selectors can be read back, and a
value keeps to itself and is finished. For values without backslashes the last condition says nothing new, so there
the text of a value is all that counts (`Content.parse_written`).
-/

set_option autoImplicit false

namespace Stylebook

open Lexer

/-! ## The written form -/

/-- What is written behind a name. -/
def valueChars (value : String) : List Char :=
  ':' :: ' ' :: (value.toList ++ [';'])

def Declaration.chars (d : Declaration) : List Char :=
  d.property.toList ++ (valueChars d.value ++ [' '])

def definitionChars (d : String × String) : List Char :=
  '@' :: (d.1.toList ++ valueChars d.2)

/-- The selectors of a rule, separated by commas. -/
def selectorsChars (ss : List Selector) : List Char :=
  Text.join [',', ' '] (ss.map Selector.chars)

def Rule.chars (r : Rule) : List Char :=
  selectorsChars r.selectors ++ (' ' :: '\x7b' :: ' ' :: (r.declarations.flatMap Declaration.chars ++ ['\x7d']))

/-- The definitions and the rules of a sheet, with `gap` behind each. -/
def sheetChars (gap : List Char) (definitions : List (String × String)) (rules : List Rule) : List Char :=
  definitions.flatMap (fun d => definitionChars d ++ gap) ++ rules.flatMap (fun r => r.chars ++ gap)

/-! ## What can be read back -/

structure ReadableValue (value : String) : Prop where
  nonempty : value ≠ ""
  trimmed : Text.trim value.toList = value.toList
  enclosed : Enclosed value.toList
  finished : Finished value.toList

structure Declaration.Readable (d : Declaration) : Prop where
  property : isName d.property.toList = true
  value : ReadableValue d.value

structure Rule.Readable (r : Rule) : Prop where
  nonempty : r.selectors ≠ []
  selectors : ∀ s ∈ r.selectors, s.Readable
  declarations : ∀ d ∈ r.declarations, d.Readable

/-! ## No comments

A written sheet holds no comment, so the text that is read is the text that was written. Each part is shown to be
left as it is whatever follows it. -/

/-- Taking comments out leaves the text as it is, whatever stands behind it. -/
def Uncommented (cs : List Char) : Prop :=
  ∀ rest, stripFrom none (cs ++ rest) = cs ++ stripFrom none rest

theorem Uncommented.append {a b : List Char} (ha : Uncommented a) (hb : Uncommented b) : Uncommented (a ++ b) := by
  intro rest
  rw [List.append_assoc, ha, hb, List.append_assoc]

theorem Uncommented.flatMap {α : Type} {f : α → List Char} {xs : List α} (h : ∀ x ∈ xs, Uncommented (f x)) :
    Uncommented (xs.flatMap f) := by
  induction xs with
  | nil => exact fun _ => rfl
  | cons x xs ih =>
    rw [List.flatMap_cons]
    exact (h x List.mem_cons_self).append (ih fun y hy => h y (List.mem_cons_of_mem x hy))

theorem Uncommented.stripComments {cs : List Char} (h : Uncommented cs) : stripComments cs = cs := by
  have whole := h []
  rwa [List.append_nil, stripFrom, List.append_nil] at whole

theorem uncommented_of_plain {cs : List Char} (plain : ∀ c ∈ cs, Text.isQuote c = false ∧ c ≠ '/') :
    Uncommented cs :=
  stripFrom_append_of_plain plain

theorem plain_of_isNameChar {c : Char} (h : isNameChar c = true) : Text.isQuote c = false ∧ c ≠ '/' := by
  refine ⟨not_isQuote_of_continues (continues_of_isNameChar h), ?_⟩
  rintro rfl
  cases h

theorem uncommented_of_isName {name : List Char} (named : isName name = true) : Uncommented name :=
  uncommented_of_plain fun c hc => plain_of_isNameChar (isNameChar_of_isName named c hc)

theorem Simple.uncommented {s : Simple} (readable : s.Readable) : Uncommented s.chars := by
  have marked (c : Char) {name : List Char} (mark : Text.isQuote c = false ∧ c ≠ '/')
      (named : ∀ x ∈ name, isNameChar x = true) : Uncommented (c :: name) := by
    refine uncommented_of_plain fun x hx => ?_
    rcases List.mem_cons.mp hx with rfl | hx
    · exact mark
    · exact plain_of_isNameChar (named x hx)
  cases s with
  | element name => exact uncommented_of_isName readable
  | universal => exact marked '*' (by decide) (by simp)
  | className name => exact marked '.' (by decide) (isNameChar_of_isName readable)
  | pseudo name => exact marked ':' (by decide) (isNameChar_of_isName readable)
  | identifier name =>
    refine marked '#' (by decide) ?_
    by_cases few : run isHexDigit name.toList < 3
    · simp only [Readable, few, if_true] at readable
      exact isNameChar_of_isName readable
    · simp only [Readable, few, if_false] at readable
      exact fun x hx => isNameChar_of_isHexDigit (readable.2 x hx)

theorem Compound.uncommented {c : Compound} (readable : c.Readable) : Uncommented c.chars := by
  refine Uncommented.flatMap fun s hs => ?_
  rcases List.mem_cons.mp hs with rfl | hs
  · exact Simple.uncommented readable.head
  · exact Simple.uncommented (readable.tail s hs).1

theorem Selector.uncommented {s : Selector} (readable : s.Readable) : Uncommented s.chars := by
  have combinator (c : Combinator) : Uncommented c.chars := by
    cases c <;> exact uncommented_of_plain (by simp [Combinator.chars, Text.isQuote])
  rw [chars_eq]
  exact (Compound.uncommented readable.head).append <| .flatMap fun link hl =>
    (combinator link.1).append (Compound.uncommented (readable.tail link hl).1)

theorem uncommented_selectorsChars {ss : List Selector} (readable : ∀ s ∈ ss, s.Readable) :
    Uncommented (selectorsChars ss) := by
  induction ss with
  | nil => exact fun _ => rfl
  | cons s ss ih =>
    have here := Selector.uncommented (readable s List.mem_cons_self)
    have behind := ih fun x hx => readable x (List.mem_cons_of_mem s hx)
    cases ss with
    | nil => exact here
    | cons s' ss =>
      have comma : Uncommented [',', ' '] := uncommented_of_plain (by simp [Text.isQuote])
      exact (here.append comma).append behind

theorem uncommented_valueChars {value : String} (readable : ReadableValue value) :
    Uncommented (valueChars value) := by
  have colon : Uncommented [':', ' '] := uncommented_of_plain (by simp [Text.isQuote])
  have semicolon : Uncommented [';'] := uncommented_of_plain (by simp [Text.isQuote])
  refine colon.append (b := value.toList ++ [';']) fun rest => ?_
  rw [List.append_assoc, readable.enclosed.stripFrom_append (by simp), semicolon, List.append_assoc]

theorem Declaration.uncommented {d : Declaration} (readable : d.Readable) : Uncommented d.chars :=
  (uncommented_of_isName readable.property).append <|
    (uncommented_valueChars readable.value).append (uncommented_of_plain (by simp [Text.isQuote]))

theorem uncommented_definitionChars {d : String × String} (named : isName d.1.toList = true)
    (readable : ReadableValue d.2) : Uncommented (definitionChars d) := by
  have mark : Uncommented ['@'] := uncommented_of_plain (by simp [Text.isQuote])
  exact mark.append ((uncommented_of_isName named).append (uncommented_valueChars readable))

theorem Rule.uncommented {r : Rule} (readable : r.Readable) : Uncommented r.chars := by
  have brace : Uncommented [' ', '\x7b', ' '] := uncommented_of_plain (by simp [Text.isQuote])
  have close : Uncommented ['\x7d'] := uncommented_of_plain (by simp [Text.isQuote])
  exact (uncommented_selectorsChars readable.selectors).append <| brace.append <|
    Uncommented.append (.flatMap fun d hd => Declaration.uncommented (readable.declarations d hd)) close

theorem uncommented_of_blank {gap : List Char} (blank : ∀ c ∈ gap, isSkipped c = true) : Uncommented gap := by
  refine uncommented_of_plain fun c hc => ?_
  have skipped := blank c hc
  simp only [isSkipped, Bool.or_eq_true, beq_iff_eq] at skipped
  rcases skipped with (((rfl | rfl) | rfl) | rfl) | rfl <;> decide

/-! ## Selectors -/

theorem Behind.selector {front rest : List Char} {ts : List Token} {s : Selector} (readable : s.Readable)
    (ends : Ends rest) (h : Behind front (s.chars ++ rest) ts) :
    ∃ ts', Selector.read ts = .ok (s, ts') ∧ Behind (front ++ s.chars) rest ts' := by
  obtain ⟨previous, rfl⟩ := h
  exact ⟨_, Selector.read_chars readable ends previous _, behind_append ..⟩

theorem ends_comma (rest : List Char) : Ends (',' :: rest) where
  parted := by
    intro c hc
    obtain rfl : ',' = c := by simpa using hc
    exact .inr (.inl rfl)
  ends := by
    intro previous start t ht
    rw [tokensFrom_mark rfl (by decide)] at ht
    obtain rfl := Option.some.inj ht
    exact ⟨by simp, rfl⟩

theorem ends_block (rest : List Char) : Ends (' ' :: '\x7b' :: rest) where
  parted := by
    intro c hc
    obtain rfl : ' ' = c := by simpa using hc
    exact .inl rfl
  ends := by
    intro previous start t ht
    rw [tokensFrom_blank, tokensFrom_mark rfl (by decide)] at ht
    obtain rfl := Option.some.inj ht
    exact ⟨by simp, rfl⟩

theorem readSelectors_last {ts rest : List Token} {s : Selector} {t : Token}
    (here : Selector.read ts = .ok (s, t :: rest)) (last : t.kind ≠ .comma) :
    readSelectors ts = .ok ([s], t :: rest) := by
  rw [readSelectors]
  split <;> simp_all

theorem readSelectors_cons {ts rest rest' : List Token} {s : Selector} {more : List Selector} {t : Token}
    (here : Selector.read ts = .ok (s, t :: rest)) (comma : t.kind = .comma)
    (behind : readSelectors rest = .ok (more, rest')) : readSelectors ts = .ok (s :: more, rest') := by
  rw [readSelectors]
  split <;> simp_all

/-- The selectors of a rule are read back, up to the brace that opens its block. -/
theorem readSelectors_written {ss : List Selector} (nonempty : ss ≠ []) (readable : ∀ s ∈ ss, s.Readable)
    {front rest : List Char} {ts : List Token} (h : Behind front (selectorsChars ss ++ ' ' :: '\x7b' :: rest) ts) :
    ∃ t ts', readSelectors ts = .ok (ss, t :: ts') ∧ t.kind = .braceOpen ∧
      Behind (front ++ (selectorsChars ss ++ [' ', '\x7b'])) rest ts' := by
  induction ss generalizing front ts with
  | nil => exact absurd rfl nonempty
  | cons s ss ih =>
    have here := readable s List.mem_cons_self
    cases ss with
    | nil =>
      obtain ⟨ts, found, h⟩ := h.selector here (ends_block rest)
      obtain ⟨t, ts, rfl, kind, _, h⟩ := h.blank.mark rfl (by decide)
      refine ⟨t, ts, readSelectors_last found (by simp [kind]), kind, ?_⟩
      simpa [selectorsChars, Text.join] using h
    | cons s' ss =>
      have split : selectorsChars (s :: s' :: ss) ++ ' ' :: '\x7b' :: rest =
          s.chars ++ ',' :: ([' '] ++ (selectorsChars (s' :: ss) ++ ' ' :: '\x7b' :: rest)) := by
        simp [selectorsChars, Text.join]
      rw [split] at h
      obtain ⟨ts, found, h⟩ := h.selector here (ends_comma _)
      obtain ⟨comma, ts, rfl, kind, _, h⟩ := h.mark rfl (by decide)
      obtain ⟨t, ts', more, brace, h⟩ := ih (by simp) (fun x hx => readable x (List.mem_cons_of_mem s hx)) h.blank
      refine ⟨t, ts', readSelectors_cons found kind more, brace, ?_⟩
      simpa [selectorsChars, Text.join] using h

/-! ## Declarations and blocks -/

/-- A value with a blank in front, and blanks behind it or none. -/
theorem ReadableValue.spaced {value : String} (readable : ReadableValue value) (back : List Char)
    (blank : ∀ c ∈ back, c = ' ') :
    Enclosed (' ' :: (value.toList ++ back)) ∧ Finished (' ' :: (value.toList ++ back)) ∧
      Text.trim (' ' :: (value.toList ++ back)) = value.toList := by
  have behind : Enclosed back ∧ Finished back := by
    clear readable
    induction back with
    | nil => exact ⟨.nil, finished_nil⟩
    | cons c back ih =>
      obtain ⟨rfl, later⟩ := List.forall_mem_cons.mp blank
      obtain ⟨enclosed, finished⟩ := ih later
      exact ⟨.plain rfl (by decide) (by simp) enclosed, finished.skipped rfl⟩
  have apart : Apart back := by
    intro c hc
    rw [blank c (List.mem_of_mem_head? hc)]
    rfl
  have star : back.head? ≠ some '*' := by
    intro star
    cases blank '*' (List.mem_of_mem_head? star)
  refine ⟨?_, ?_, ?_⟩
  · exact .plain rfl (by decide) (by simp) (readable.enclosed.append behind.1 star)
  · exact (readable.finished.append behind.2 apart).skipped rfl
  · have trimmed := Text.trimWhile_eq_self_iff.mp readable.trimmed
    apply Text.trimWhile_append trimmed (show ∀ c ∈ [' '], Text.isBlank c = true by simp; rfl)
    intro c hc
    rw [blank c hc]
    rfl

theorem readColonValue_written {source front rest : List Char} {ts : List Token} {value : String}
    (readable : ReadableValue value) (here : source = front ++ (valueChars value ++ rest))
    (h : Behind front (valueChars value ++ rest) ts) :
    ∃ ts', readColonValue source ts = .ok (value, ts') ∧ Behind (front ++ valueChars value) rest ts' := by
  have text : valueChars value ++ rest = ':' :: ((' ' :: value.toList) ++ ';' :: rest) := by simp [valueChars]
  obtain ⟨enclosed, finished, value'⟩ := readable.spaced [] (List.forall_mem_nil _)
  rw [List.append_nil] at enclosed finished value'
  rw [text] at h here
  obtain ⟨ts', found, h⟩ :=
    readColonValue_enclosed enclosed finished (by simpa [value'] using readable.nonempty) h
  refine ⟨ts', ?_, by simpa [valueChars] using h⟩
  rw [here, found, value', String.ofList_toList]

theorem head_valueChars (value : String) (rest : List Char) :
    ∀ c ∈ (valueChars value ++ rest).head?, isNameChar c = false := by
  intro c hc
  obtain rfl : ':' = c := by simpa [valueChars] using hc
  rfl

theorem Block.read_close {source : List Char} {t : Token} {ts : List Token} (close : t.kind = .braceClose) :
    read source (t :: ts) = .ok (⟨[], []⟩, ts) := by
  rw [read, close]

theorem Block.read_declaration {source : List Char} {t : Token} {ts rest rest' : List Token} {value : String}
    {b : Block} (name : t.kind = .ident) (here : readColonValue source ts = .ok (value, rest))
    (behind : read source rest = .ok (b, rest')) :
    read source (t :: ts) = .ok (⟨⟨t.text, value⟩ :: b.declarations, b.definitions⟩, rest') := by
  have found : Declaration.read source t ts = .ok (⟨t.text, value⟩, rest) := by
    simp [Declaration.read, name, here, Except.map]
  rw [read]
  simp only [name]
  split
  · rename_i h
    rw [found] at h
    cases h
  · rename_i h
    rw [found] at h
    cases h
    rw [behind]

/-- The declarations of a block are read back, up to and with the brace that closes it. -/
theorem Block.read_written {ds : List Declaration} (readable : ∀ d ∈ ds, d.Readable) {source front rest : List Char}
    {ts : List Token} (here : source = front ++ (ds.flatMap Declaration.chars ++ '\x7d' :: rest))
    (h : Behind front (ds.flatMap Declaration.chars ++ '\x7d' :: rest) ts) :
    ∃ ts', read source ts = .ok (⟨ds, []⟩, ts') ∧
      Behind (front ++ (ds.flatMap Declaration.chars ++ ['\x7d'])) rest ts' := by
  induction ds generalizing front ts with
  | nil =>
    obtain ⟨t, ts, rfl, kind, _, h⟩ := h.mark rfl (by decide)
    exact ⟨ts, read_close kind, h⟩
  | cons d ds ih =>
    obtain ⟨property, value⟩ := readable d List.mem_cons_self
    have text : (d :: ds).flatMap Declaration.chars ++ '\x7d' :: rest = d.property.toList ++
        (valueChars d.value ++ ([' '] ++ (ds.flatMap Declaration.chars ++ '\x7d' :: rest))) := by
      simp [Declaration.chars]
    rw [text] at h here
    obtain ⟨t, ts, rfl, kind, name, h⟩ := h.name property (head_valueChars _ _)
    obtain ⟨ts, found, h⟩ := readColonValue_written value (by simpa using here) h
    obtain ⟨ts', more, h⟩ := ih (fun x hx => readable x (List.mem_cons_of_mem d hx)) (by simpa using here) h.blank
    refine ⟨ts', ?_, by simpa [Declaration.chars] using h⟩
    rw [read_declaration kind found more]
    simp [Token.text, name]

/-- A rule is read back. -/
theorem Rule.read_written {r : Rule} (readable : r.Readable) {source front rest : List Char} {ts : List Token}
    (here : source = front ++ (r.chars ++ rest)) (h : Behind front (r.chars ++ rest) ts) :
    ∃ ts', read source ts = .ok ((r, []), ts') ∧ Behind (front ++ r.chars) rest ts' := by
  have text : r.chars ++ rest = selectorsChars r.selectors ++ ' ' :: '\x7b' ::
      ([' '] ++ (r.declarations.flatMap Declaration.chars ++ '\x7d' :: rest)) := by
    simp [chars]
  rw [text] at h here
  obtain ⟨t, ts, selectors, brace, h⟩ := readSelectors_written readable.nonempty readable.selectors h
  obtain ⟨ts', block, h⟩ := Block.read_written readable.declarations (by simpa using here) h.blank
  refine ⟨ts', ?_, by simpa [chars] using h⟩
  simp [read, selectors, Token.expect, brace, block]

/-! ## Sheets -/

theorem Content.readOnto_definition {source : List Char} {c : Content} {t : Token} {ts rest : List Token}
    {value : String} (reference : t.kind = .reference) (here : readColonValue source ts = .ok (value, rest)) :
    readOnto source c (t :: ts) = readOnto source (c.define (String.ofList (Reference.bare t.chars)) value) rest := by
  rw [readOnto, reference]
  dsimp only
  split
  · rename_i h
    rw [here] at h
    cases h
  · rename_i h
    rw [here] at h
    cases h
    rfl

/-- The selectors of a rule start with a token that a simple selector starts with. -/
theorem readSelectors_of_none {t : Token} {ts : List Token} (none : Simple.read t ts = .ok none) :
    readSelectors (t :: ts) = .error (.at t .selectorPart) := by
  have compound : Compound.read (t :: ts) = .error (.at t .selectorPart) := by simp only [Compound.read, none]
  have selector : Selector.read (t :: ts) = .error (.at t .selectorPart) := by simp only [Selector.read, compound]
  rw [readSelectors]
  split <;> simp_all

/-- Where selectors can be read, what is read is a rule. -/
theorem Content.readOnto_selectors {source : List Char} {c : Content} {ts rest : List Token} {ss : List Selector}
    (here : readSelectors ts = .ok (ss, rest)) :
    readOnto source c ts = (Rule.read source ts).bind fun r => readOnto source (c.addBlock r.1.1 r.1.2) r.2 := by
  cases ts with
  | nil => exact absurd (readSelectors_length here) (by simp)
  | cons t ts =>
    have other : Simple.read t ts ≠ .ok none := by
      intro none
      rw [readSelectors_of_none none] at here
      cases here
    rw [readOnto]
    split
    · rename_i kind
      exact absurd (by simp [Simple.read, kind]) other
    · rename_i kind
      exact absurd (by simp [Simple.read, kind]) other
    · split <;> simp_all [Except.bind]

theorem Content.readOnto_rule {source : List Char} {c : Content} {ts rest : List Token} {r : Rule}
    (here : Rule.read source ts = .ok ((r, []), rest)) :
    readOnto source c ts = readOnto source (c.addRule r) rest := by
  have selectors : ∃ ss rest', readSelectors ts = .ok (ss, rest') := by
    unfold Rule.read at here
    split at here
    · cases here
    · exact ⟨_, _, by assumption⟩
  obtain ⟨ss, rest', found⟩ := selectors
  rw [readOnto_selectors found, here]
  rfl

theorem Content.readOnto_definitions {definitions : List (String × String)} {gap : List Char}
    (blank : ∀ c ∈ gap, isSkipped c = true)
    (readable : ∀ d ∈ definitions, isName d.1.toList = true ∧ ReadableValue d.2) {source front rest : List Char}
    {ts : List Token} (here : source = front ++ (definitions.flatMap (fun d => definitionChars d ++ gap) ++ rest))
    (h : Behind front (definitions.flatMap (fun d => definitionChars d ++ gap) ++ rest) ts) (c : Content) :
    ∃ ts', readOnto source c ts = readOnto source (definitions.foldl (fun c d => c.define d.1 d.2) c) ts' ∧
      Behind (front ++ definitions.flatMap (fun d => definitionChars d ++ gap)) rest ts' := by
  induction definitions generalizing front ts c with
  | nil => exact ⟨ts, rfl, by simpa using h⟩
  | cons d definitions ih =>
    obtain ⟨named, value⟩ := readable d List.mem_cons_self
    have text : (d :: definitions).flatMap (fun d => definitionChars d ++ gap) ++ rest = '@' :: (d.1.toList ++
        (valueChars d.2 ++ (gap ++ (definitions.flatMap (fun d => definitionChars d ++ gap) ++ rest)))) := by
      simp [definitionChars]
    rw [text] at h here
    obtain ⟨t, ts, rfl, kind, name, h⟩ := h.reference named (head_valueChars _ _)
    obtain ⟨ts, found, h⟩ := readColonValue_written value (by simpa using here) h
    obtain ⟨ts', more, h⟩ := ih (fun x hx => readable x (List.mem_cons_of_mem d hx)) (by simpa using here)
      (h.skip blank) (c.define d.1 d.2)
    refine ⟨ts', ?_, by simpa [definitionChars] using h⟩
    rw [readOnto_definition kind found, name, Reference.bare, String.ofList_toList, more]
    rfl

theorem Content.readOnto_rules {rules : List Rule} {gap : List Char} (blank : ∀ c ∈ gap, isSkipped c = true)
    (readable : ∀ r ∈ rules, r.Readable) {source front : List Char} {ts : List Token}
    (here : source = front ++ rules.flatMap (fun r => r.chars ++ gap))
    (h : Behind front (rules.flatMap (fun r => r.chars ++ gap)) ts) (c : Content) :
    readOnto source c ts = .ok { c with rules := c.rules ++ rules } := by
  induction rules generalizing front ts c with
  | nil =>
    obtain ⟨previous, rfl⟩ := h
    rw [List.flatMap_nil, tokensFrom_nil, readOnto, List.append_nil]
  | cons r rules ih =>
    have text : (r :: rules).flatMap (fun r => r.chars ++ gap) =
        r.chars ++ (gap ++ rules.flatMap (fun r => r.chars ++ gap)) := by
      simp
    rw [text] at h here
    obtain ⟨ts', found, h⟩ := Rule.read_written (readable r List.mem_cons_self) here h
    rw [readOnto_rule found, ih (fun x hx => readable x (List.mem_cons_of_mem r hx)) (by simpa using here)
      (h.skip blank)]
    simp [addRule]

theorem Content.rules_foldl_define (definitions : List (String × String)) (c : Content) :
    (definitions.foldl (fun c d => c.define d.1 d.2) c).rules = c.rules := by
  induction definitions generalizing c with
  | nil => rfl
  | cons d definitions ih => exact ih _

theorem Content.rules_addBlock (c : Content) (r : Rule) (definitions : List (String × String)) :
    (c.addBlock r definitions).rules = c.rules ++ [r] :=
  rules_foldl_define definitions _

/-- Reading on leaves the rules that were read. -/
theorem Content.rules_prefix_of_readOnto {source : List Char} {c c' : Content} {ts : List Token}
    (h : readOnto source c ts = .ok c') : c.rules <+: c'.rules := by
  fun_induction readOnto source c ts with
  | case1 =>
    cases h
    exact List.prefix_rfl
  | case2 _ _ _ _ ih => exact ih h
  | case3 => cases h
  | case4 _ _ _ _ _ _ _ ih => exact ih h
  | case5 => cases h
  | case6 c _ _ _ _ rule definitions _ _ ih =>
    have behind := ih h
    rw [rules_addBlock] at behind
    exact (List.prefix_append _ _).trans behind

/-- The last definition of a name counts. -/
theorem Content.valueOf?_foldl_define (definitions : List (String × String)) (c : Content) (name : String) :
    (definitions.foldl (fun c d => c.define d.1 d.2) c).valueOf? name =
      ((definitions.reverse.find? fun d => d.1 == name).map (·.2)).or (c.valueOf? name) := by
  induction definitions generalizing c with
  | nil => rfl
  | cons d definitions ih =>
    rw [List.foldl_cons, ih, List.reverse_cons, List.find?_append]
    cases definitions.reverse.find? (fun d => d.1 == name) with
    | some _ => rfl
    | none =>
      by_cases same : d.1 = name
      · simp [valueOf?, define, same]
      · simp [valueOf?, define, same]

/-- A written sheet is read back. -/
theorem Content.parse_sheetChars {gap : List Char} {definitions : List (String × String)} {rules : List Rule}
    (blank : ∀ c ∈ gap, isSkipped c = true)
    (defined : ∀ d ∈ definitions, isName d.1.toList = true ∧ ReadableValue d.2) (ruled : ∀ r ∈ rules, r.Readable) :
    parse (String.ofList (sheetChars gap definitions rules)) =
      .ok ⟨rules, (definitions.foldl (fun c d => c.define d.1 d.2) empty).definitions⟩ := by
  have uncommented : Uncommented (sheetChars gap definitions rules) :=
    Uncommented.append
      (.flatMap fun d hd =>
        (uncommented_definitionChars (defined d hd).1 (defined d hd).2).append (uncommented_of_blank blank))
      (.flatMap fun r hr => (Rule.uncommented (ruled r hr)).append (uncommented_of_blank blank))
  obtain ⟨ts', found, h⟩ :=
    readOnto_definitions blank defined rfl (behind_nil (sheetChars gap definitions rules)) empty
  unfold parse
  rw [String.toList_ofList, uncommented.stripComments]
  refine found.trans ((readOnto_rules blank ruled (by simp) h _).trans ?_)
  rw [rules_foldl_define]
  rfl

/-! ## Values without backslashes -/

/-- A value with closed quotes that ends where it should: nothing outside the quotes ends it or starts a comment. -/
structure PlainValue (value : String) : Prop where
  nonempty : value ≠ ""
  trimmed : Text.trim value.toList = value.toList
  escape : '\\' ∉ value.toList
  enclosed : Enclosed value.toList

theorem PlainValue.readable {value : String} (plain : PlainValue value) : ReadableValue value :=
  ⟨plain.nonempty, plain.trimmed, plain.enclosed, plain.enclosed.finished plain.escape⟩

/-- **A sheet that is written and read is the same sheet.** -/
theorem Content.parse_written {gap : List Char} {definitions : List (String × String)} {rules : List Rule}
    (blank : ∀ c ∈ gap, isSkipped c = true)
    (defined : ∀ d ∈ definitions, isName d.1.toList = true ∧ PlainValue d.2)
    (selectors : ∀ r ∈ rules, r.selectors ≠ [] ∧ ∀ s ∈ r.selectors, ∃ text, Selector.parse text = .ok s)
    (declarations : ∀ r ∈ rules, ∀ d ∈ r.declarations, isName d.property.toList = true ∧ PlainValue d.value) :
    ∃ c, parse (String.ofList (sheetChars gap definitions rules)) = .ok c ∧ c.rules = rules ∧
      ∀ name, c.valueOf? name = (definitions.reverse.find? fun d => d.1 == name).map (·.2) := by
  have ruled : ∀ r ∈ rules, r.Readable := by
    intro r hr
    obtain ⟨nonempty, parsed⟩ := selectors r hr
    refine ⟨nonempty, fun s hs => ?_, fun d hd => ?_⟩
    · obtain ⟨text, found⟩ := parsed s hs
      exact Selector.readable_of_parse found
    · obtain ⟨property, value⟩ := declarations r hr d hd
      exact ⟨property, value.readable⟩
  have readable : ∀ d ∈ definitions, isName d.1.toList = true ∧ ReadableValue d.2 :=
    fun d hd => ⟨(defined d hd).1, (defined d hd).2.readable⟩
  refine ⟨_, parse_sheetChars blank readable ruled, rfl, fun name => ?_⟩
  have found := valueOf?_foldl_define definitions empty name
  rwa [show empty.valueOf? name = none from rfl, Option.or_none] at found

theorem Content.parse_written_quoted :
    ∃ c, parse (String.ofList (sheetChars ['\n'] [("x", "'a;b'"), ("x", "1")]
        [⟨[⟨⟨.element "a", [.pseudo "b"]⟩, []⟩, ⟨⟨.universal, []⟩, []⟩], [⟨"p", "\"\x7d /*\""⟩]⟩])) = .ok c ∧
      c.rules = [⟨[⟨⟨.element "a", [.pseudo "b"]⟩, []⟩, ⟨⟨.universal, []⟩, []⟩], [⟨"p", "\"\x7d /*\""⟩]⟩] ∧
      ∀ name, c.valueOf? name = ([("x", "'a;b'"), ("x", "1")].reverse.find? fun d => d.1 == name).map (·.2) := by
  have quoted : PlainValue "'a;b'" :=
    ⟨by decide, by decide, by decide, show Enclosed ('\'' :: (['a', ';', 'b'] ++ '\'' :: [])) from
      .quoted rfl (by decide) .nil⟩
  have figure : PlainValue "1" := ⟨by decide, by decide, by decide, .plain rfl (by decide) (by decide) .nil⟩
  have comment : PlainValue "\"\x7d /*\"" :=
    ⟨by decide, by decide, by decide, show Enclosed ('"' :: (['\x7d', ' ', '/', '*'] ++ '"' :: [])) from
      .quoted rfl (by decide) .nil⟩
  have first : Selector.Readable ⟨⟨.element "a", [.pseudo "b"]⟩, []⟩ :=
    ⟨⟨show isName ['a'] = true by decide, by simp [Simple.Readable, Simple.lead]; decide⟩, by simp⟩
  have second : Selector.Readable ⟨⟨.universal, []⟩, []⟩ := ⟨⟨trivial, by simp⟩, by simp⟩
  refine parse_written (by simp [isSkipped]) ?_ ?_ ?_
  · simp [quoted, figure]
    decide
  · intro r hr
    obtain rfl := List.mem_singleton.mp hr
    refine ⟨by simp, fun s hs => ⟨s.text, Selector.parse_text ?_⟩⟩
    simp only [List.mem_cons, List.not_mem_nil, or_false] at hs
    rcases hs with rfl | rfl
    · exact first
    · exact second
  · intro r hr d hd
    obtain rfl := List.mem_singleton.mp hr
    obtain rfl := List.mem_singleton.mp hd
    exact ⟨by decide, comment⟩

end Stylebook
