import Stylebook.Proofs.Cascade.Declarations
import Stylebook.Proofs.Content.Locality
import Stylebook.Proofs.Token.Words
import Stylebook.Repository.Loading

/-!
# Selectors alone and in front of a block

A selector is read in two places: alone, when somebody asks for what is declared under it, and in front of a block, when
a sheet is read. Declarations are found by comparing the two, so whatever text is accepted alone has to be read as the
same selector in a sheet, odd characters included. It is, if the text has no quotes and no comments
(`Content.parse_headed`), and then what a sheet declares under a text is found under that text
(`Cascade.selectors_alike`).

The two readings differ in what is around the selector. A sheet is first freed of comments, and here there are none. Its
text goes on behind the selector, but the blank there keeps the tokens of the selector as they were, since no quoted
text can be open. And where the reader of a selector has come to the end of the tokens, it stops in front of a brace as
well.
-/

set_option autoImplicit false

namespace Stylebook

open Lexer

/-! ## Texts without quotes -/

/-- Where there are no quotes, no quoted text is left open. -/
theorem finished_of_plain {cs : List Char} (plain : ∀ c ∈ cs, Text.isQuote c = false) : Finished cs := by
  suffices closed : ∀ start, ∀ p ∈ scan start cs, p.isOpen = false from closed 0
  intro start p hp
  fun_induction scan start cs with
  | case1 => cases hp
  | case2 start c cs kind n first chars ih =>
    rcases List.mem_cons.mp hp with rfl | hp
    · simp [Piece.isOpen, chars, plain c List.mem_cons_self]
    · apply ih _ hp
      intro x hx
      exact plain x (List.mem_cons_of_mem c (List.mem_of_mem_drop hx))

/-- Without quotes and comments, a text in front of a blank is left as it is. The blank is needed: a slash at the end of
the text could open a comment with what follows. -/
theorem uncommented_blank {cs : List Char} (plain : ∀ c ∈ cs, Text.isQuote c = false)
    (never : ¬['/', '*'] <:+: cs) : Uncommented (cs ++ [' ']) := by
  intro rest
  induction cs with
  | nil => exact stripFrom_append_of_plain (by simp [Text.isQuote]) rest
  | cons c cs ih =>
    have behind := ih (fun x hx => plain x (List.mem_cons_of_mem c hx)) fun within => never (List.infix_cons within)
    have goesOn : ¬(none.isNone (α := Char) && c == '/' && ((cs ++ [' ']) ++ rest).head? == some '*') = true := by
      intro opens
      simp only [Bool.and_eq_true, beq_iff_eq] at opens
      obtain ⟨⟨-, rfl⟩, star⟩ := opens
      cases cs with
      | nil => simp at star
      | cons d cs =>
        obtain rfl : d = '*' := Option.some.inj star
        exact never ⟨[], cs, rfl⟩
    rw [List.cons_append, List.cons_append, stripFrom, if_neg goesOn,
      quoteAfter_of_not_isQuote (plain c List.mem_cons_self), behind, List.cons_append]

/-! ## Selectors in front of a block -/

/-- What is accepted alone is read from all tokens of the text. -/
theorem Selector.read_of_parse {text : String} {s : Selector} (alone : parse text = .ok s) :
    read (tokens text.toList) = .ok (s, []) := by
  unfold parse at alone
  split at alone
  · cases alone
  · rename_i found
    cases alone
    exact found
  · cases alone

theorem closes_of_braceOpen {t : Token} (brace : t.kind = .braceOpen) (ts : List Token) : Closes (t :: ts) := by
  intro u hu
  obtain rfl : t = u := Option.some.inj hu
  rw [brace]
  exact ⟨rfl, by decide, rfl⟩

/-- The selector of a text, and the brace behind it, where the text opens a block. -/
theorem readSelectors_headed {text : String} {s : Selector} (alone : Selector.parse text = .ok s)
    (plain : ∀ c ∈ text.toList, Text.isQuote c = false) (rest : List Char) :
    ∃ t ts, readSelectors (tokens (text.toList ++ ' ' :: '\x7b' :: rest)) = .ok ([s], t :: ts) ∧
      t.kind = .braceOpen ∧ Behind (text.toList ++ [' ', '\x7b']) rest ts := by
  obtain ⟨last, cut⟩ := tokensFrom_append (finished_of_plain plain) none 0
  have split := cut (' ' :: '\x7b' :: rest) (apart_blank rfl _)
  have late := behind_append [] text.toList (' ' :: '\x7b' :: rest) last
  obtain ⟨t, ts, brace, kind, -, h⟩ := late.blank.mark rfl (by decide)
  refine ⟨t, ts, ?_, kind, by simpa using h⟩
  have here := Selector.read_append (t :: ts) (Selector.read_of_parse alone) fun _ => closes_of_braceOpen kind ts
  rw [tokens_eq, split, ← tokens_eq]
  apply readSelectors_last _ (by rw [kind]; decide)
  rw [← List.nil_append (t :: ts), ← here, ← brace]
  rfl

/-! ## The block behind the selector -/

/-- The only declaration of a block, without a semicolon behind it. -/
theorem Block.read_single {source front : List Char} {ts : List Token} {property value : String}
    (named : isName property.toList = true) (readable : ReadableValue value)
    (here : source = front ++ ' ' :: (property.toList ++ ':' :: ((' ' :: (value.toList ++ [' '])) ++ ['\x7d'])))
    (h : Behind front (' ' :: (property.toList ++ ':' :: ((' ' :: (value.toList ++ [' '])) ++ ['\x7d']))) ts) :
    read source ts = .ok (⟨[⟨property, value⟩], []⟩, []) := by
  obtain ⟨enclosed, finished, value'⟩ := readable.spaced [' '] (by simp)
  have stop : ∀ c ∈ (':' :: ((' ' :: (value.toList ++ [' '])) ++ ['\x7d'])).head?, isNameChar c = false := by
    intro c hc
    obtain rfl : ':' = c := Option.some.inj hc
    rfl
  obtain ⟨t, ts, rfl, kind, name, h⟩ := h.blank.name named stop
  obtain ⟨close, ts, found, brace, previous, rfl⟩ :=
    readColonValue_last enclosed finished (by simpa [value'] using readable.nonempty) h
  have split : front ++ [' '] ++ property.toList ++ ':' :: ((' ' :: (value.toList ++ [' '])) ++ ['\x7d']) = source := by
    simp [here]
  rw [split, value', tokensFrom_nil] at found
  rw [read_declaration kind found (read_close brace), Token.text, name, String.ofList_toList, String.ofList_toList]

/-- **What is accepted as a selector alone is the selector of a rule that it opens.** -/
theorem Content.parse_headed {text property value : String} {s : Selector} (alone : Selector.parse text = .ok s)
    (plain : ∀ c ∈ text.toList, Text.isQuote c = false) (never : ¬"/*".toList <:+: text.toList)
    (named : isName property.toList = true) (readable : ReadableValue value) :
    parse (text ++ " \x7b " ++ property ++ ": " ++ value ++ " \x7d") =
      .ok (empty.addRule ⟨[s], [⟨property, value⟩]⟩) := by
  generalize block : ' ' :: (property.toList ++ ':' :: ((' ' :: (value.toList ++ [' '])) ++ ['\x7d'])) = rest
  have source : stripComments (text ++ " \x7b " ++ property ++ ": " ++ value ++ " \x7d").toList =
      text.toList ++ ' ' :: '\x7b' :: rest := by
    have brace : Uncommented ['\x7b', ' '] := uncommented_of_plain (by simp [Text.isQuote])
    have colon : Uncommented [':', ' '] := uncommented_of_plain (by simp [Text.isQuote])
    have close : stripFrom none [' ', '\x7d'] = [' ', '\x7d'] := by decide +kernel
    have whole : (text ++ " \x7b " ++ property ++ ": " ++ value ++ " \x7d").toList =
        (text.toList ++ [' ']) ++ (['\x7b', ' '] ++
          (property.toList ++ ([':', ' '] ++ (value.toList ++ [' ', '\x7d'])))) := by
      simp
    rw [whole, stripComments, uncommented_blank plain never, brace, uncommented_of_isName named, colon,
      readable.enclosed.stripFrom_append (by simp), close, ← block]
    simp
  obtain ⟨t, ts, selectors, brace, behind⟩ := readSelectors_headed alone plain rest
  have found : Block.read (text.toList ++ ' ' :: '\x7b' :: rest) ts = .ok (⟨[⟨property, value⟩], []⟩, []) := by
    subst block
    exact Block.read_single named readable (by simp) behind
  have rule : Rule.read (text.toList ++ ' ' :: '\x7b' :: rest) (tokens (text.toList ++ ' ' :: '\x7b' :: rest)) =
      .ok ((⟨[s], [⟨property, value⟩]⟩, []), []) := by
    simp [Rule.read, selectors, Token.expect, brace, found]
  unfold parse
  rw [source]
  exact (readOnto_rule rule).trans (by rw [readOnto])

/-! ## The only sheet of a repository -/

theorem Repository.activeSheets_register {σ : Type} {r : Repository σ} (none : r.order = []) {sheet : Sheet}
    (active : sheet.active = true) {scope : Scope} (inside : scope.contains sheet = true) :
    (r.register sheet).2.activeSheets scope = [sheet] := by
  have free : r.idAt? sheet.location = Option.none := by simp [idAt?, entries, none]
  have order : (r.insert sheet).2.order = [⟨r.nextIndex⟩] := by
    show r.order ++ _ = _
    rw [none, List.nil_append]
  simp [register, free, activeSheets, entries, order, active, inside]

/-- **Selectors read alike alone and in a sheet.** A text without quotes and comments that is accepted as a selector
opens a rule with exactly that selector, and what the rule declares is found under the text. -/
theorem Cascade.selectors_alike {text property value : String} {s : Selector} (alone : Selector.parse text = .ok s)
    (plain : ∀ c ∈ text.toList, Text.isQuote c = false) (never : ¬"/*".toList <:+: text.toList)
    (named : isName property.toList = true) (declared : PlainValue value) :
    ∃ content, Content.parse (text ++ " \x7b " ++ property ++ ": " ++ value ++ " \x7d") = .ok content ∧
      content.rules = [⟨[s], [⟨property, value⟩]⟩] ∧
      ∀ {σ α : Type} (c : Cascade σ α) (location : Location) (name group : Option String) (scope : Scope),
        c.sheets.order = [] → scope.contains (Sheet.build location content name group) = true →
        declared? { c with sheets := (c.sheets.register (Sheet.build location content name group)).2 } text property
          scope = some value := by
  refine ⟨_, Content.parse_headed alone plain never named declared.readable, rfl, ?_⟩
  intro σ α c location name group scope none inside
  have sheets := Repository.activeSheets_register none rfl inside
  unfold declared?
  rw [alone]
  dsimp only
  rw [sheets]
  simp [declarationIn?, Sheet.build, Sheet.of, Content.addRule, Content.empty, Rule.hasSelector, Rule.declaration?,
    sameProperty]

/-- The lexer drops the exclamation mark, the slash and the accented letter; the first of them parts the class from the
type, and the name behind the number sign is a colour to the lexer. -/
theorem Cascade.selectors_alike_dropped :
    ∃ content, Content.parse ("a!.b />é #add" ++ " \x7b " ++ "p" ++ ": " ++ "v" ++ " \x7d") = .ok content ∧
      content.rules = [⟨[⟨⟨.element "a", []⟩,
        [(.descendant, ⟨.className "b", []⟩), (.child, ⟨.identifier "add", []⟩)]⟩], [⟨"p", "v"⟩]⟩] ∧
      declared? ⟨((Repository.empty () Content.parse none .standard).register
          (Sheet.build ⟨"mem://a.css"⟩ content none (some "g"))).2, .empty, (.empty : Registry Rat)⟩
        "a!.b />é #add" "p" (.ofGroups ["g"]) = some "v" := by
  have plain : PlainValue "v" := ⟨by decide, by decide, by decide, .plain rfl (by decide) (by decide) .nil⟩
  have alone : Selector.parse "a!.b />é #add" = .ok ⟨⟨.element "a", []⟩,
      [(.descendant, ⟨.className "b", []⟩), (.child, ⟨.identifier "add", []⟩)]⟩ := by decide +kernel
  have named : isName "p".toList = true := by decide
  obtain ⟨content, read, rules, found⟩ := selectors_alike alone (by simp [Text.isQuote]) (by decide) named plain
  have inside : (Scope.ofGroups ["g"]).contains (Sheet.build ⟨"mem://a.css"⟩ content none (some "g")) = true := by
    simp [Scope.ofGroups, Scope.nameSet, Scope.insertName, Scope.contains, Sheet.build]
  exact ⟨content, read, rules, found (.of (.empty () Content.parse none .standard) .empty) _ _ _ _ rfl inside⟩

end Stylebook
