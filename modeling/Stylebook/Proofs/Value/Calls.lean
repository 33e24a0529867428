import Stylebook.Proofs.Value.Steps

/-!
# Calls of functions

Fonts, colours and transforms are written with calls: a name, a parenthesis that opens, arguments, and the parenthesis
that closes. The readers see the words of a call. They tell it from a name that stands by itself by the parenthesis that
opens behind the name (`Call`, `Reading.Unopened`).

As a text, the call of a function has the text of its arguments inside (`Text.call`, `Text.withArgument`). Its words are
those of the text inside with a few around them (`Lexer.consists_call`, `Lexer.Consists.argument`). So what is known of
the words of a text can be used for the text in a call, and for that call in another one.
-/

set_option autoImplicit false

namespace Stylebook

/-! ## Words of calls -/

/-- A name and the parenthesis behind it. -/
structure Call (w o : Word) : Prop where
  name : w.kind = .ident
  opens : o.kind = .parenOpen

namespace Reading

variable {t : Token} {rest : List Token}

/-- No parenthesis opens here, so that a name in front is no call. -/
def Unopened (ts : List Token) : Prop :=
  ts.head?.map (·.kind) ≠ some .parenOpen

theorem unopened_nil : Unopened [] := by
  simp [Unopened]

theorem unopened_cons : Unopened (t :: rest) ↔ t.kind ≠ .parenOpen := by
  simp [Unopened]

theorem unopened_of_kind {kind : TokenKind} (here : t.kind = kind) (other : kind ≠ .parenOpen) :
    Unopened (t :: rest) :=
  unopened_cons.mpr (here ▸ other)

end Reading

/-! ## Texts of calls -/

namespace Text

/-- The call of a function. -/
def call (name inside : List Char) : List Char :=
  name ++ '(' :: (inside ++ [')'])

/-- A text and an argument behind it. -/
def withArgument (inside argument : List Char) : List Char :=
  inside ++ ',' :: ' ' :: argument

end Text

namespace Lexer

variable {name inside : List Char} {ws : List Word}

theorem isName_of_same {small : List Char} (same : Text.sameIgnoringCase name small = true)
    (lower : isName (Text.asciiLower small) = true) : isName name = true :=
  isName_of_asciiLower (by rwa [beq_iff_eq.mp same])

theorem consists_call (named : isName name = true) (consists : Consists inside ws) :
    Consists (Text.call name inside) (⟨.ident, name⟩ :: ⟨.parenOpen, ['(']⟩ :: (ws ++ [⟨.parenClose, [')']⟩])) := by
  have close : Consists [')'] [⟨.parenClose, [')']⟩] := consists_nil.mark rfl (by decide)
  have arguments : Consists (inside ++ [')']) (ws ++ [⟨.parenClose, [')']⟩]) :=
    consists.append close (apart_cons rfl [])
  have opened : Consists ('(' :: (inside ++ [')'])) (⟨.parenOpen, ['(']⟩ :: (ws ++ [⟨.parenClose, [')']⟩])) :=
    arguments.mark rfl (by decide)
  exact (consists_name named).append opened (apart_cons rfl _)

theorem Consists.argument {kind : TokenKind} {w : List Char} (consists : Consists inside ws) (word : w ∈ kind.pattern) :
    Consists (Text.withArgument inside w) (ws ++ [⟨.comma, [',']⟩, ⟨kind, w⟩]) := by
  have argument : Consists (',' :: ' ' :: w) [⟨.comma, [',']⟩, ⟨kind, w⟩] :=
    ((consists_of_mem_pattern word).blank rfl).mark rfl (by decide)
  exact consists.append argument (apart_cons rfl _)

end Lexer

end Stylebook
