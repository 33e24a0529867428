import Stylebook.Proofs.Content.Written

/-!
# Quoted text in values

A value that the lexer takes for tokens without a semicolon and without a closing brace should be kept as it is. It is
kept if it is enclosed, and only then (`Content.parse_value_iff`). The difference is one thing: to the lexer a quote
behind a backslash belongs to the quoted text, to the other scans it ends it. Where no quoted text holds its own quote
the two agree (`enclosed_of_tokensStrict`); where one does, the value may be cut short, or may swallow what follows.
-/

set_option autoImplicit false

namespace Stylebook

open Lexer

/-! ## Where a text stops being enclosed -/

/-- The text starts with the end of a value, with a comment, or with a quote that is never closed. -/
inductive Breaks : List Char → Prop
  | stop {c : Char} {cs : List Char} (terminator : c = ';' ∨ c = '\x7d') : Breaks (c :: cs)
  | comment {cs : List Char} : Breaks ('/' :: '*' :: cs)
  | opened {q : Char} {cs : List Char} (quote : Text.isQuote q = true) (never : q ∉ cs) : Breaks (q :: cs)

/-- A text is enclosed up to where it breaks. -/
theorem exists_enclosed_front (cs : List Char) :
    ∃ front rest, cs = front ++ rest ∧ Enclosed front ∧ (rest = [] ∨ Breaks rest) := by
  induction length : cs.length using Nat.strong_induction_on generalizing cs with
  | _ n ih =>
    cases cs with
    | nil => exact ⟨[], [], rfl, .nil, .inl rfl⟩
    | cons c cs =>
      subst length
      by_cases quote : Text.isQuote c = true
      · by_cases closed : c ∈ cs
        · obtain ⟨inner, behind, rfl, inside⟩ := List.eq_append_cons_of_mem closed
          obtain ⟨front, rest, rfl, enclosed, breaks⟩ := ih _ (by simp; omega) behind rfl
          exact ⟨c :: (inner ++ c :: front), rest, by simp, .quoted quote inside enclosed, breaks⟩
        · exact ⟨[], c :: cs, rfl, .nil, .inr (.opened quote closed)⟩
      · by_cases terminator : c = ';' ∨ c = '\x7d'
        · exact ⟨[], c :: cs, rfl, .nil, .inr (.stop terminator)⟩
        · by_cases comment : c = '/' ∧ cs.head? = some '*'
          · obtain ⟨rfl, star⟩ := comment
            obtain ⟨cs, rfl⟩ := List.head?_eq_some_iff.mp star
            exact ⟨[], _, rfl, .nil, .inr .comment⟩
          · obtain ⟨front, rest, rfl, enclosed, breaks⟩ := ih _ (by simp) cs rfl
            refine ⟨c :: front, rest, rfl, .plain (by simpa using quote) (by simpa using terminator) ?_ enclosed,
              breaks⟩
            rintro ⟨rfl, star⟩
            refine comment ⟨rfl, ?_⟩
            rw [List.head?_append, star]
            rfl

theorem stripFrom_open {q : Char} {cs : List Char} (never : q ∉ cs) : stripFrom (some q) cs = cs := by
  induction cs with
  | nil => rw [stripFrom]
  | cons c cs ih =>
    have other : c ≠ q := fun h => never (h ▸ List.mem_cons_self)
    rw [stripFrom]
    simp [quoteAfter, other, ih fun h => never (List.mem_cons_of_mem c h)]

theorem rawLength_open {q : Char} {cs : List Char} (never : q ∉ cs) : rawLength (some q) cs = cs.length := by
  induction cs with
  | nil => rfl
  | cons c cs ih =>
    have other : c ≠ q := fun h => never (h ▸ List.mem_cons_self)
    simp only [rawLength, Option.isNone_some, Bool.false_and, Bool.false_eq_true, if_false, quoteAfter, other,
      ih fun h => never (List.mem_cons_of_mem c h), List.length_cons]
    omega

/-! What the reader takes for the value where a text breaks: nothing, or a blank, or all the rest. -/

theorem rawPart_stop {c : Char} (terminator : c = ';' ∨ c = '\x7d') (cs : List Char) :
    rawPart (stripFrom none (c :: cs)) = [] := by
  have kept : stripFrom none (c :: cs) = c :: stripFrom none cs := by
    rw [stripFrom]
    rcases terminator with rfl | rfl <;> rfl
  rw [kept, rawPart_terminator terminator]

theorem rawPart_comment (cs : List Char) : ∃ behind, rawPart (stripFrom none ('/' :: '*' :: cs)) = ' ' :: behind := by
  rw [stripFrom]
  simp [rawPart, rawLength, Nat.add_comm 1]

theorem rawPart_open {q : Char} {cs : List Char} (quote : Text.isQuote q = true) (never : q ∉ cs) :
    rawPart (stripFrom none (q :: cs)) = q :: cs := by
  rw [stripFrom_quote quote, stripFrom_open never, rawPart, rawLength_quote quote, rawLength_open never, Nat.add_comm,
    ← List.length_cons, List.take_length]

/-- What stands before a comment stays in front of the blank that the comment becomes. -/
theorem trim_comment_ne {front cs behind : List Char} (trimmed : Text.Trimmed Text.isBlank (front ++ '/' :: cs))
    (nonempty : front ≠ []) : Text.trim (front ++ ' ' :: behind) ≠ front ++ '/' :: cs := by
  intro kept
  obtain ⟨before, after, whole, blanks, -⟩ := Text.trimWhile_split Text.isBlank (front ++ ' ' :: behind)
  rw [show Text.trimWhile Text.isBlank _ = _ from kept] at whole
  cases front with
  | nil => exact nonempty rfl
  | cons c front =>
    cases before with
    | nil => simp at whole
    | cons d before =>
      obtain rfl : c = d := (List.cons.inj whole).1
      simp [trimmed.head c rfl] at blanks

/-- The end of a block is not trimmed off a value. -/
theorem trim_append_close {cs : List Char} (nonempty : cs ≠ []) (head : ∀ c ∈ cs.head?, Text.isBlank c = false) :
    Text.trim (cs ++ [';', ' ', '\x7d']) = cs ++ [';', ' ', '\x7d'] := by
  refine Text.trimWhile_of_trimmed ⟨fun c hc => head c ?_, fun c hc => ?_⟩
  · cases cs with
    | nil => exact absurd rfl nonempty
    | cons d cs => exact hc
  · rw [show cs ++ [';', ' ', '\x7d'] = (cs ++ [';', ' ']) ++ ['\x7d'] by simp, List.getLast?_concat] at hc
    obtain rfl := Option.some.inj hc
    rfl

/-- A value that comes out of the end of a block as it went in is enclosed. It would come out shorter if it held its
own end, changed if it held a comment, and longer if it left a quote open. -/
theorem enclosed_of_kept {cs : List Char} (trimmed : Text.Trimmed Text.isBlank cs) (slash : cs.head? ≠ some '/')
    (kept : Text.trim (rawPart (stripFrom none (cs ++ [';', ' ', '\x7d']))) = cs) : Enclosed cs := by
  obtain ⟨front, rest, rfl, enclosed, rfl | breaks⟩ := exists_enclosed_front cs
  · simpa using enclosed
  exfalso
  -- a slash that ends the enclosed front opens no comment together with what comes next
  have apart : (rest ++ [';', ' ', '\x7d']).head? ≠ some '*' := by
    cases breaks with
    | stop terminator => rcases terminator with rfl | rfl <;> simp
    | comment => simp
    | opened quote never =>
      rintro h
      obtain rfl := Option.some.inj h
      cases quote
  rw [List.append_assoc, enclosed.stripFrom_append apart, enclosed.rawPart_append] at kept
  cases breaks with
  | @stop c cs terminator =>
    rw [List.cons_append, rawPart_stop terminator, List.append_nil] at kept
    have shorter : (Text.trim front).length ≤ front.length := Text.length_trimWhile_le _ front
    rw [kept, List.length_append, List.length_cons] at shorter
    omega
  | @comment cs =>
    have nonempty : front ≠ [] := by
      rintro rfl
      exact slash rfl
    obtain ⟨behind, blank⟩ := rawPart_comment (cs ++ [';', ' ', '\x7d'])
    rw [List.cons_append, List.cons_append, blank] at kept
    exact trim_comment_ne trimmed nonempty kept
  | @opened q cs quote never =>
    have never' : q ∉ cs ++ [';', ' ', '\x7d'] := by
      simp only [Text.isQuote, Bool.or_eq_true, beq_iff_eq] at quote
      rcases quote with rfl | rfl <;> simpa using never
    rw [List.cons_append, rawPart_open quote never', ← List.cons_append, ← List.append_assoc,
      trim_append_close (by simp) trimmed.head] at kept
    have longer := congrArg List.length kept
    simp at longer

/-! ## The value of a sheet with one declaration -/

theorem Block.read_value {source : List Char} {t : Token} {ts rest : List Token} {b : Block} (name : t.kind = .ident)
    (h : read source (t :: ts) = .ok (b, rest)) :
    ∃ value rest', readColonValue source ts = .ok (value, rest') ∧ ⟨t.text, value⟩ ∈ b.declarations.head? := by
  rw [read] at h
  simp only [name] at h
  split at h
  · cases h
  · rename_i d rest' here
    split at h
    · cases h
    · cases h
      unfold Declaration.read at here
      rw [if_pos name] at here
      cases found : readColonValue source ts with
      | error e => simp [found, Except.map] at here
      | ok p =>
        obtain ⟨value, rest''⟩ := p
        simp only [found, Except.map, Except.ok.injEq, Prod.mk.injEq] at here
        exact ⟨value, rest'', rfl, by simp [here.1]⟩

/-- Where a sheet has one rule with one declaration, the value behind the first colon of its block was read as the value
of that declaration. -/
theorem Content.value_of_readOnto {source : List Char} {ts rest : List Token} {ss : List Selector} {brace t : Token}
    {d : Declaration} {c : Content} (selectors : readSelectors ts = .ok (ss, brace :: t :: rest))
    (kind : brace.kind = .braceOpen) (name : t.kind = .ident) (h : readOnto source empty ts = .ok c)
    (one : c.rules = [⟨ss, [d]⟩]) : ∃ rest', readColonValue source rest = .ok (d.value, rest') := by
  rw [readOnto_selectors selectors] at h
  simp only [Rule.read, selectors, Token.expect, kind, if_true] at h
  cases block : Block.read source (t :: rest) with
  | error e => simp [block, Except.bind] at h
  | ok p =>
    obtain ⟨b, behind⟩ := p
    simp only [block, Except.bind] at h
    have rules := rules_prefix_of_readOnto h
    rw [rules_addBlock, one] at rules
    have declarations : b.declarations = [d] := by
      have same := List.IsPrefix.eq_of_length rules (by simp [empty])
      simpa [empty] using same
    obtain ⟨value, rest', found, first⟩ := Block.read_value name block
    rw [declarations] at first
    obtain rfl : d = ⟨t.text, value⟩ := Option.some.inj first
    exact ⟨rest', found⟩

/-- The value of the only declaration is the text behind its colon, up to the end that the reader sees. -/
theorem Content.trim_of_parse {ss : List Selector} {property value : String} {text : List Char} {c : Content}
    (nonempty : ss ≠ []) (readable : ∀ s ∈ ss, s.Readable) (named : isName property.toList = true)
    (h : parse (String.ofList (selectorsChars ss ++ ' ' :: '\x7b' :: ([' '] ++ (property.toList ++ ':' :: text)))) =
      .ok c) (one : c.rules = [⟨ss, [⟨property, value⟩]⟩]) :
    Text.trim (rawPart (stripFrom none text)) = value.toList := by
  have front : Uncommented (selectorsChars ss ++ ([' ', '\x7b', ' '] ++ (property.toList ++ [':']))) := by
    have brace : Uncommented [' ', '\x7b', ' '] := uncommented_of_plain (by simp [Text.isQuote])
    have colon : Uncommented [':'] := uncommented_of_plain (by simp [Text.isQuote])
    exact (uncommented_selectorsChars readable).append (brace.append ((uncommented_of_isName named).append colon))
  have source : stripComments (selectorsChars ss ++ ' ' :: '\x7b' :: ([' '] ++ (property.toList ++ ':' :: text))) =
      selectorsChars ss ++ ' ' :: '\x7b' :: ([' '] ++ (property.toList ++ ':' :: stripFrom none text)) := by
    simpa [stripComments] using front text
  unfold parse at h
  rw [String.toList_ofList, source] at h
  generalize whole : selectorsChars ss ++ ' ' :: '\x7b' :: ([' '] ++ (property.toList ++ ':' :: stripFrom none text)) =
    source' at h
  have behind := behind_nil source'
  rw [← whole] at behind
  obtain ⟨brace, ts, selectors, kind, behind⟩ := readSelectors_written nonempty readable behind
  obtain ⟨t, ts', rfl, ident, name, behind⟩ := behind.blank.name named (by simp; decide)
  obtain ⟨colon, ts, rfl, mark, stop, -⟩ := behind.mark rfl (by decide)
  rw [whole] at selectors
  obtain ⟨rest, found⟩ := value_of_readOnto selectors kind ident h one
  have raw : rawBehind source' colon = rawPart (stripFrom none text) := by
    have split : source' = ([] ++ (selectorsChars ss ++ [' ', '\x7b']) ++ [' '] ++ property.toList ++ [':']) ++
        stripFrom none text := by
      simp [← whole]
    rw [rawBehind, stop, split, Text.dropBytes?_append, Option.getD_some]
  simp only [readColonValue, Token.expect, mark, if_true, readValue, raw] at found
  split at found
  · cases found
  · obtain ⟨rfl, -⟩ := Prod.mk.inj (Except.ok.inj found)
    rw [String.toList_ofList]

/-! ## Quoted texts without their own quote -/

theorem Enclosed.append_plain {front cs : List Char}
    (plain : ∀ c ∈ front, Text.isQuote c = false ∧ (c ≠ ';' ∧ c ≠ '\x7d') ∧ c ≠ '/') (enclosed : Enclosed cs) :
    Enclosed (front ++ cs) := by
  induction front with
  | nil => exact enclosed
  | cons c front ih =>
    obtain ⟨quote, goesOn, slash⟩ := plain c List.mem_cons_self
    exact .plain quote goesOn (fun h => slash h.1) (ih fun x hx => plain x (List.mem_cons_of_mem c hx))

theorem take_quotedLength {q : Char} {cs : List Char} (closed : (quotedLength q cs).1 = true) :
    ∃ inner, cs.take (quotedLength q cs).2 = inner ++ [q] := by
  fun_induction quotedLength q cs with
  | case1 => cases closed
  | case2 => cases closed
  | case3 => cases closed
  | case4 c rest _ closed' n found ih =>
    rw [found] at ih
    obtain ⟨inner, same⟩ := ih closed
    exact ⟨'\\' :: c :: inner, by simpa using same⟩
  | case5 => exact ⟨[], rfl⟩
  | case6 c cs _ _ closed' n found ih =>
    rw [found] at ih
    obtain ⟨inner, same⟩ := ih closed
    exact ⟨c :: inner, by simpa using same⟩

/-- The induction is on the pieces, as for `Balanced.not_isOpen`, with the roles of the two scans exchanged. -/
theorem enclosed_of_scan {start : Nat} {cs : List Char} (strict : ∀ p ∈ scan start cs, p.kind ≠ .fault)
    (goesOn : ∀ p ∈ scan start cs, p.kind ≠ .token .semicolon ∧ p.kind ≠ .token .braceClose)
    (inside : ∀ p ∈ scan start cs, ∀ k, p.kind = .token k → ∀ q inner, Text.isQuote q = true →
      p.chars = q :: (inner ++ [q]) → q ∉ inner) :
    Enclosed cs := by
  fun_induction scan start cs with
  | case1 => exact .nil
  | case2 start c cs kind n first chars ih =>
    have behind := ih (fun p hp => strict p (List.mem_cons_of_mem _ hp))
      (fun p hp => goesOn p (List.mem_cons_of_mem _ hp)) fun p hp => inside p (List.mem_cons_of_mem _ hp)
    have split : c :: cs = chars ++ cs.drop n := by simp [chars]
    cases quote : Text.isQuote c with
    | true =>
      -- the piece is a whole quoted text, and the first quote in it that the other scans see is its last character
      have closed := closed_of_firstPiece quote first (strict _ List.mem_cons_self)
      obtain ⟨inner, taken⟩ := take_quotedLength (congrArg Prod.fst closed)
      rw [closed] at taken
      obtain ⟨k, token⟩ := firstPiece_of_closed quote closed
      have own := inside _ List.mem_cons_self k (congrArg Prod.fst (first.symm.trans token)) c inner quote
        (congrArg (c :: ·) taken)
      rw [split, show chars = c :: (inner ++ [c]) from congrArg (c :: ·) taken]
      simpa using Enclosed.quoted quote own behind
    | false =>
      -- behind its first character, no other piece holds a quote, a terminator or a slash
      rw [split]
      refine Enclosed.append_plain (fun x hx => ?_) behind
      rcases List.mem_cons.mp hx with rfl | hx
      · refine ⟨quote, ⟨?_, ?_⟩, ?_⟩ <;> rintro rfl
        · exact (goesOn _ List.mem_cons_self).1 (congrArg Prod.fst first).symm
        · exact (goesOn _ List.mem_cons_self).2 (congrArg Prod.fst first).symm
        · exact strict _ List.mem_cons_self (congrArg Prod.fst first).symm
      · have continuing := continues_of_mem_firstPiece quote first hx
        refine ⟨not_isQuote_of_continues continuing, ⟨?_, ?_⟩, ?_⟩ <;> rintro rfl <;> cases continuing

/-- A text that is cut into tokens without the end of a value is enclosed if no quoted text holds its own quote. -/
theorem enclosed_of_tokensStrict {cs : List Char} {ts : List Token} (cut : tokensStrict cs = .ok ts)
    (goesOn : ∀ t ∈ ts, t.kind ≠ .semicolon ∧ t.kind ≠ .braceClose)
    (inside : ∀ t ∈ ts, ∀ q ∈ t.chars.head?, Text.isQuote q = true → q ∉ t.chars.tail.dropLast) :
    Enclosed cs := by
  obtain ⟨strict, rfl⟩ := tokensStrict_eq_ok_iff.mp cut
  have token {p : Piece} (hp : p ∈ scan 0 cs) {k : TokenKind} (kind : p.kind = .token k) :
      ∃ t ∈ tokens cs, t.kind = k ∧ t.chars = p.chars := by
    obtain ⟨t, ht, same, chars, -⟩ := exists_mem_tokensOf kind hp none
    exact ⟨t, ht, same, chars⟩
  refine enclosed_of_scan strict (fun p hp => ?_) fun p hp k kind q inner quote chars => ?_
  · constructor
    · intro kind
      obtain ⟨t, ht, same, -⟩ := token hp kind
      exact (goesOn t ht).1 same
    · intro kind
      obtain ⟨t, ht, same, -⟩ := token hp kind
      exact (goesOn t ht).2 same
  · obtain ⟨t, ht, -, same⟩ := token hp kind
    simpa [same, chars] using inside t ht q (by rw [same, chars]; rfl) quote

theorem head_of_tokensStrict {cs : List Char} {ts : List Token} (cut : tokensStrict cs = .ok ts) :
    cs.head? ≠ some '/' := by
  intro slash
  obtain ⟨cs, rfl⟩ := List.head?_eq_some_iff.mp slash
  refine (tokensStrict_eq_ok_iff.mp cut).1 ⟨.fault, ['/'], 0⟩ ?_ rfl
  rw [scan]
  exact List.mem_cons_self

/-! ## Values that are kept -/

/-- **A value is kept exactly if it is enclosed**, and it is if no quoted text in it holds its own quote. -/
theorem Content.parse_value_iff {value : String} {ts : List Token} (nonempty : value ≠ "")
    (trimmed : Text.trim value.toList = value.toList) (cut : tokensStrict value.toList = .ok ts)
    (goesOn : ∀ t ∈ ts, t.kind ≠ .semicolon ∧ t.kind ≠ .braceClose) :
    (parse ("a \x7b p: " ++ value ++ "; \x7d") = .ok ⟨[⟨[⟨⟨.element "a", []⟩, []⟩], [⟨"p", value⟩]⟩], .empty⟩ ↔
      Enclosed value.toList) ∧
    ((∀ t ∈ ts, ∀ q ∈ t.chars.head?, Text.isQuote q = true → q ∉ t.chars.tail.dropLast) →
      parse ("a \x7b p: " ++ value ++ "; \x7d") =
        .ok ⟨[⟨[⟨⟨.element "a", []⟩, []⟩], [⟨"p", value⟩]⟩], .empty⟩) := by
  have selector : ∀ s ∈ [(⟨⟨.element "a", []⟩, []⟩ : Selector)], s.Readable := by
    intro s hs
    obtain rfl := List.mem_singleton.mp hs
    exact ⟨⟨show isName ['a'] = true by decide, by simp⟩, by simp⟩
  have property : isName "p".toList = true := by decide
  have kept (enclosed : Enclosed value.toList) : parse ("a \x7b p: " ++ value ++ "; \x7d") =
      .ok ⟨[⟨[⟨⟨.element "a", []⟩, []⟩], [⟨"p", value⟩]⟩], .empty⟩ := by
    have rule : ∀ r ∈ [(⟨[⟨⟨.element "a", []⟩, []⟩], [⟨"p", value⟩]⟩ : Rule)], r.Readable := by
      intro r hr
      obtain rfl := List.mem_singleton.mp hr
      refine ⟨by simp, selector, fun d hd => ?_⟩
      obtain rfl := List.mem_singleton.mp hd
      exact ⟨property, nonempty, trimmed, enclosed, (tokensStrict_eq_ok_iff.mp cut).1.finished⟩
    have written := parse_sheetChars (List.forall_mem_nil _) (List.forall_mem_nil _) rule
    have text : String.ofList (sheetChars [] [] [⟨[⟨⟨.element "a", []⟩, []⟩], [⟨"p", value⟩]⟩]) =
        "a \x7b p: " ++ value ++ "; \x7d" := by
      rw [← String.toList_inj]
      simp [sheetChars, Rule.chars, selectorsChars, Text.join, Selector.chars, Selector.parts, SelectorPart.chars,
        Compound.chars, Compound.simples, Simple.chars, Declaration.chars, valueChars]
    rwa [text] at written
  refine ⟨⟨fun h => ?_, kept⟩, fun inside => kept (enclosed_of_tokensStrict cut goesOn inside)⟩
  have text : "a \x7b p: " ++ value ++ "; \x7d" = String.ofList (selectorsChars [⟨⟨.element "a", []⟩, []⟩] ++
      ' ' :: '\x7b' :: ([' '] ++ ("p".toList ++ ':' :: ([' '] ++ (value.toList ++ [';', ' ', '\x7d']))))) := by
    rw [← String.toList_inj]
    simp [selectorsChars, Text.join, Selector.chars, Selector.parts, SelectorPart.chars, Compound.chars,
      Compound.simples, Simple.chars]
  rw [text] at h
  have same := trim_of_parse (by simp) selector property h rfl
  have blank : Enclosed [' '] := .plain rfl (by decide) (by simp) .nil
  rw [stripFrom_append_of_plain (by simp [Text.isQuote]), blank.rawPart_append, List.singleton_append,
    Text.trim_blank_cons] at same
  exact enclosed_of_kept (Text.trimWhile_eq_self_iff.mp trimmed) (head_of_tokensStrict cut) same

theorem Content.parse_value_iff_terminators :
    parse ("a \x7b p: " ++ "\"; \x7d\" 'x'" ++ "; \x7d") =
      .ok ⟨[⟨[⟨⟨.element "a", []⟩, []⟩], [⟨"p", "\"; \x7d\" 'x'"⟩]⟩], .empty⟩ :=
  (parse_value_iff (by decide) (by decide)
    (show tokensStrict _ = .ok [⟨.doubleQuoted, "\"; \x7d\"".toList, 0, false⟩, ⟨.singleQuoted, "'x'".toList, 6, false⟩]
      by decide +kernel)
    (by simp)).2 (by simp)

/-- The quoted text `"\";"` is one token, and its semicolon ends the value all the same. -/
theorem Content.parse_value_escaped :
    tokensStrict "\"\\\";\"".toList = .ok [⟨.doubleQuoted, "\"\\\";\"".toList, 0, false⟩] ∧
      parse ("a \x7b p: " ++ "\"\\\";\"" ++ "; \x7d") =
        .ok ⟨[⟨[⟨⟨.element "a", []⟩, []⟩], [⟨"p", "\"\\\""⟩]⟩], .empty⟩ := by
  decide +kernel

end Stylebook
