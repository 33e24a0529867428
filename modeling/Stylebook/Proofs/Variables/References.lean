import Stylebook.Cascade
import Stylebook.Content.Reader
import Stylebook.Proofs.Value.Ends
import Stylebook.Proofs.Variables.Segments
import Stylebook.Scalar.Double

/-!
# References that stand alone

A text that is one reference is read as the value of its variable is, without the quotes and blanks at the ends of the
value: `@accent` has the colour `#ff0000` where `accent` is defined as `"#ff0000"`, although that text itself is a
quoted string and no colour. Where the type does not see the ends of a text (`EndsUnseen`), the reference and the
value read alike (`Cascade.parseValue_reference`).
-/

set_option autoImplicit false

namespace Stylebook

open Reference

namespace Variables

variable {v : Variables} {sheets : List Sheet} {name value : String}

theorem bareName_of_isName (named : Lexer.isName name.toList = true) : bareName name = name := by
  have bare_name : ∀ cs, Lexer.isName cs = true → bare cs = cs := by
    rintro (_ | ⟨c, cs⟩) named
    · rfl
    · have start := startsName_of_isNameStart ((Bool.and_eq_true _ _).mp named).1
      unfold bare
      split
      · rename_i mark
        rw [(List.cons.inj mark).1] at start
        exact absurd start (by decide)
      · rename_i mark
        rw [(List.cons.inj mark).1] at start
        exact absurd start (by decide)
      · rfl
  rw [bareName, bare_name _ named, String.ofList_toList]

theorem lookupChars_of_valueOf? (named : Lexer.isName name.toList = true)
    (found : v.valueOf? sheets name = some value) : v.lookupChars sheets name.toList = some value.toList := by
  rw [valueOf?, bareName_of_isName named] at found
  rw [lookupChars, String.ofList_toList, found]
  rfl

/-- A reference that stands alone is expanded to its value, without the quotes and blanks at the ends, if the value has
no references in turn. -/
theorem expand_reference (named : Lexer.isName name.toList = true) (found : v.valueOf? sheets name = some value)
    (plain : names value.toList = []) :
    v.expand sheets ("@" ++ name) = (String.ofList (Text.trimQuotes value.toList), true) := by
  have text : ("@" ++ name).toList = '@' :: name.toList := by simp
  have inner := names_trimQuotes value.toList
  rw [plain] at inner
  have stored := lookupChars_of_valueOf? named found
  rw [expand, text, maxDepth, expandAt_reference _ _ _ (isName_of_isName named) List.not_mem_nil stored,
    expandAt_of_names_eq_nil _ _ _ inner]

theorem expand_plain (v : Variables) (sheets : List Sheet) (plain : names value.toList = []) :
    v.expand sheets value = (value, false) := by
  rw [expand, expandAt_of_names_eq_nil _ _ _ plain]
  simp

end Variables

namespace Cascade

variable {σ α : Type} [Scalar α] [Trigonometric α]

/-- A reference that stands alone is read as the value of its variable without the quotes and blanks at its ends. It is
read as the value itself by each of the thirteen readers that makes no difference between the two. -/
theorem parseValue_reference {c : Cascade σ α} {scope : Scope} {name value : String} (serial : Nat) (type : ValueType)
    (named : Lexer.isName name.toList = true) (found : c.valueOf? name scope = some value)
    (plain : names value.toList = []) :
    c.parseValue serial type ("@" ++ name) scope =
        c.parseValue serial type (String.ofList (Text.trimQuotes value.toList)) scope ∧
      ∀ usual read, (type, read) ∈ Registry.standardReaders usual → c.registry.readers.get? type = some read →
        EndsUnseen type value.toList →
          (c.parseValue serial type ("@" ++ name) scope).toOption =
            (c.parseValue serial type value scope).toOption := by
  have inner : names (String.ofList (Text.trimQuotes value.toList)).toList = [] := by
    rw [String.toList_ofList, names_trimQuotes, plain]
  have reference : c.parseValue serial type ("@" ++ name) scope =
      c.registry.parse serial type (String.ofList (Text.trimQuotes value.toList)) := by
    rw [parseValue, expand, Variables.expand_reference named found plain]
  have itself : c.parseValue serial type value scope = c.registry.parse serial type value := by
    rw [parseValue, expand, Variables.expand_plain _ _ plain]
  refine ⟨?_, fun usual read standard given unseen => ?_⟩
  · rw [reference, parseValue, expand, Variables.expand_plain _ _ inner]
  · have same := Registry.parse_trimQuotes standard given serial unseen
    rw [String.ofList_toList] at same
    rw [reference, itself, same]

theorem parseValue_reference_quoted :
    let c : Cascade Unit Float :=
      ⟨.empty () Content.parse none .standard, Variables.empty.set "gap" " 'auto' ", .standard⟩
    (c.parseValue 0 .relativeNumber "@gap" .all).toOption =
      (c.parseValue 0 .relativeNumber " 'auto' " .all).toOption := by
  intro c
  have found : c.valueOf? "gap" .all = some " 'auto' " := by decide +kernel
  have reads := parseValue_reference (c := c) 0 .relativeNumber (by decide) found (by decide +kernel)
  exact reads.2 Font.systemSize _ (by simp [Registry.standardReaders]) rfl (.inl (by decide))

/-- Values that are read otherwise than references to them: a colour and keywords in quotes, a family in quotes with a
size behind, and figures with a no-break space behind. -/
theorem parseValue_ne_reference :
    let c : Cascade Unit Float :=
      ⟨.empty () Content.parse none .standard,
        ⟨.ofList [("accent", "\"#ff0000\""), ("align", "'top|left'"), ("title", "\"Avenir\" 12"),
          ("frame", "1 2 3 4\u00a0")]⟩, .standard⟩
    (∀ name ∈ ["accent", "align", "title", "frame"], Lexer.isName name.toList = true ∧
        ∃ value, c.valueOf? name .all = some value ∧ value ≠ "" ∧ names value.toList = []) ∧
      (c.parseValue 0 .color "@accent" .all).toOption.isSome ∧
      (c.parseValue 0 .color "\"#ff0000\"" .all).toOption.isNone ∧
      (c.parseValue 0 .keywords "@align" .all).toOption.bind Value.toText? = some "top left" ∧
      (c.parseValue 0 .keywords "'top|left'" .all).toOption.bind Value.toText? = some "top|left" ∧
      (c.parseValue 0 .font "@title" .all).toOption.isNone ∧
      (c.parseValue 0 .font "\"Avenir\" 12" .all).toOption.isSome ∧
      (c.parseValue 0 .rect "@frame" .all).toOption.isSome ∧
      (c.parseValue 0 .rect "1 2 3 4\u00a0" .all).toOption.isNone := by
  intro c
  refine ⟨?_, by decide +kernel, by decide +kernel, by decide +kernel, by decide +kernel, by decide +kernel,
    by decide +kernel, by decide +kernel, by decide +kernel⟩
  intro name h
  simp only [List.mem_cons, List.not_mem_nil, or_false] at h
  rcases h with rfl | rfl | rfl | rfl <;> exact ⟨by decide, _, rfl, by decide, by decide +kernel⟩

end Cascade

end Stylebook
