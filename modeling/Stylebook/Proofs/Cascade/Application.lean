import Stylebook.Cascade
import Stylebook.Content.Reader
import Stylebook.Proofs.Value.Steps
import Stylebook.Property.KeywordTable
import Stylebook.Repository.Loading
import Stylebook.Scalar.Double

/-!
# Setting properties of objects

There are two ways to set a property of an object: to a raw text, and to what is declared for it. Both read the text,
put numbers for keywords and set the value, and the second is the first with the text that is declared and without
parameters (`applyDeclared_of_declared?`).

A property that was made from a setter on a type of objects and a type of values keeps this setter when numbers for
keywords and parameters are added (`IsTyped`). It runs its setter where the object shows as one of the type and the
value converts, and touches nothing otherwise (`IsTyped.setValue_cases`). So an object is as it was unless the answer is
that it was set, and then it is as one run of the setter leaves it (`apply_settles`). That it was one run and no more
shows with a setter that keeps a record of its runs (`recorded`).
-/

set_option autoImplicit false

namespace Stylebook

/-! ## Properties with a setter of their own -/

namespace Property

variable {α κ τ ν : Type} {view? : κ → Option τ} {review : τ → κ} {convert : Value α → Option ν}
  {set : τ → ν → List (Value α) → τ} {p : Property α κ}

/-- The property was made with this setter, and the setter was not replaced since. -/
inductive IsTyped (view? : κ → Option τ) (review : τ → κ) (convert : Value α → Option ν)
    (set : τ → ν → List (Value α) → τ) : Property α κ → Prop
  | typed (name : String) (type : ValueType) (target : String) :
      IsTyped view? review convert set (.typed name type target view? review convert set)
  | withMapping {p : Property α κ} (made : IsTyped view? review convert set p) (mapping : String → Int64) :
      IsTyped view? review convert set (p.withMapping mapping)
  | withParameter {p : Property α κ} (made : IsTyped view? review convert set p) (parameter : String → Value α) :
      IsTyped view? review convert set (p.withParameter parameter)

/-- Such a property sets values as when it was made. -/
theorem IsTyped.setValue_eq (made : p.IsTyped view? review convert set) (object : κ) (value : Value α)
    (parameters : List (Value α)) :
    p.setValue object value parameters =
      match view? object, convert value with
      | some inner, some v => (true, review (set inner v parameters))
      | _, _ => (false, object) := by
  induction made with
  | typed name type target =>
    cases shown : view? object <;> cases converted : convert value <;>
      simp [setValue, Property.typed, shown, converted]
  | withMapping _ _ ih => exact ih
  | withParameter _ _ ih => exact ih

/-- Either the object or the value is of another type and the object is as it was, or the setter has run on the
converted value. -/
theorem IsTyped.setValue_cases (made : p.IsTyped view? review convert set) (object : κ) (value : Value α)
    (parameters : List (Value α)) :
    (view? object = none ∨ convert value = none) ∧ p.setValue object value parameters = (false, object) ∨
      ∃ inner v, view? object = some inner ∧ convert value = some v ∧
        p.setValue object value parameters = (true, review (set inner v parameters)) := by
  rw [made.setValue_eq]
  cases view? object with
  | none => exact .inl ⟨.inl rfl, rfl⟩
  | some inner =>
    cases convert value with
    | none => exact .inl ⟨.inr rfl, rfl⟩
    | some v => exact .inr ⟨inner, v, rfl, rfl, rfl⟩

end Property

/-! ## Applying raw texts -/

namespace Cascade

variable {σ α κ : Type} {c : Cascade σ α} {serial : Nat} {selector raw : String} {p : Property α κ} {scope : Scope}

theorem applyDeclared_of_not_declared? (none : c.declared? selector p.name scope = none) (object : κ) :
    c.applyDeclared serial selector p object scope = (.ok false, object) := by
  unfold applyDeclared resolve
  rw [none]

theorem resolve_of_declared? (declared : c.declared? selector p.name scope = some raw) :
    c.resolve serial selector p scope =
      (c.parseValue serial p.type raw scope).map fun v => some (p.mapKeywords v) := by
  unfold resolve
  rw [declared]

/-- What is declared is set as if its text were given, without parameters. -/
theorem applyDeclared_of_declared? (declared : c.declared? selector p.name scope = some raw) (object : κ) :
    c.applyDeclared serial selector p object scope = c.apply serial p object raw [] scope := by
  unfold applyDeclared apply
  rw [resolve_of_declared? declared]
  cases read : c.parseValue serial p.type raw scope with
  | error e => rfl
  | ok v => rfl

/-- The object is as it was unless it was set, and then it is as one run of the setter leaves it, on the value that the
one that was read converts to. The answer is an error where reading is one, and the object is set wherever both it and
the value that was read are of the types that the setter takes. -/
structure Settles {τ ν : Type} (view? : κ → Option τ) (review : τ → κ) (convert : Value α → Option ν)
    (set : τ → ν → List (Value α) → τ) (read : Except ValueError (Option (Value α))) (parameters : List (Value α))
    (object : κ) (result : Except ValueError Bool × κ) : Prop where
  kept : result.1 ≠ .ok true → result.2 = object
  ran : result.1 = .ok true → ∃ value inner v, read = .ok (some value) ∧ view? object = some inner ∧
    convert value = some v ∧ result.2 = review (set inner v parameters)
  failed_iff : ∀ e, result.1 = .error e ↔ read = .error e
  sets : ∀ value inner v, read = .ok (some value) → view? object = some inner → convert value = some v →
    result.1 = .ok true

variable {τ ν : Type} {view? : κ → Option τ} {review : τ → κ} {convert : Value α → Option ν}
  {set : τ → ν → List (Value α) → τ}

theorem apply_settles (made : p.IsTyped view? review convert set) (c : Cascade σ α) (serial : Nat) (object : κ)
    (raw : String) (parameters : List String) (scope : Scope) :
    Settles view? review convert set ((c.parseValue serial p.type raw scope).map fun v => some (p.mapKeywords v))
      (p.transformParameters parameters) object (c.apply serial p object raw parameters scope) := by
  unfold apply
  cases c.parseValue serial p.type raw scope with
  | error e =>
    exact ⟨fun _ => rfl, nofun, fun e' => by simp only [Except.map, Except.error.injEq], nofun⟩
  | ok value =>
    dsimp only
    rcases made.setValue_cases object (p.mapKeywords value) (p.transformParameters parameters) with
      ⟨other, kept⟩ | ⟨inner, v, shown, converted, ran⟩
    · rw [kept]
      refine ⟨fun _ => rfl, nofun, fun e => ⟨nofun, nofun⟩, fun value' inner v given shown converted => ?_⟩
      cases given
      rcases other with hidden | unfit
      · exact absurd (hidden.symm.trans shown) (by simp)
      · exact absurd (unfit.symm.trans converted) (by simp)
    · rw [ran]
      exact ⟨fun h => absurd rfl h, fun _ => ⟨_, inner, v, rfl, shown, converted, rfl⟩,
        fun e => ⟨nofun, nofun⟩, fun _ _ _ _ _ _ => rfl⟩

theorem applyDeclared_settles (made : p.IsTyped view? review convert set) (c : Cascade σ α) (serial : Nat)
    (selector : String) (object : κ) (scope : Scope) :
    Settles view? review convert set (c.resolve serial selector p scope) [] object
      (c.applyDeclared serial selector p object scope) := by
  cases declared : c.declared? selector p.name scope with
  | none =>
    have nothing : c.resolve serial selector p scope = .ok none := by
      unfold resolve
      rw [declared]
    rw [applyDeclared_of_not_declared? declared, nothing]
    exact ⟨fun _ => rfl, nofun, fun e => ⟨nofun, nofun⟩, nofun⟩
  | some raw =>
    rw [applyDeclared_of_declared? declared, resolve_of_declared? declared]
    exact apply_settles made c serial object raw [] scope

/-! ## Counting runs -/

/-- The runs of a setter: the converted values and the parameters that it was given. -/
abbrev Runs (α ν : Type) : Type :=
  List (ν × List (Value α))

/-- The setter with a record of its runs. -/
def recorded (set : τ → ν → List (Value α) → τ) (object : τ × Runs α ν) (v : ν) (parameters : List (Value α)) :
    τ × Runs α ν :=
  (set object.1 v parameters, object.2 ++ [(v, parameters)])

def recordedView? (view? : κ → Option τ) (object : κ × Runs α ν) : Option (τ × Runs α ν) :=
  (view? object.1).map (·, object.2)

def recordedReview (review : τ → κ) (object : τ × Runs α ν) : κ × Runs α ν :=
  (review object.1, object.2)

/-- The setter has run once if the object was set, on the converted value, and not at all if it was not. -/
structure Counts (convert : Value α → Option ν) (read : Except ValueError (Option (Value α)))
    (parameters : List (Value α)) (runs : Runs α ν) (result : Except ValueError Bool × (κ × Runs α ν)) : Prop where
  none : result.1 ≠ .ok true → result.2.2 = runs
  once : result.1 = .ok true → ∃ value v, read = .ok (some value) ∧ convert value = some v ∧
    result.2.2 = runs ++ [(v, parameters)]

theorem Settles.counts {read : Except ValueError (Option (Value α))} {parameters : List (Value α)} {object : κ}
    {runs : Runs α ν} {result : Except ValueError Bool × (κ × Runs α ν)}
    (h : Settles (recordedView? view?) (recordedReview review) convert (recorded set) read parameters (object, runs)
      result) : Counts convert read parameters runs result where
  none failed := congrArg (·.2) (h.kept failed)
  once done := by
    obtain ⟨value, inner, v, given, shown, converted, after⟩ := h.ran done
    obtain ⟨inside, -, rfl⟩ := Option.map_eq_some_iff.mp shown
    exact ⟨value, v, given, converted, congrArg (·.2) after⟩

/-- **Setting what is declared is setting its text, and what fails touches nothing.** What is declared is set like its
text without parameters, and resolved to what the text is read as, with numbers for keywords. If nothing is declared,
nothing is set. A property with the setter that it was made with leaves the object as it was unless it was set, and then
the setter has run on the converted value; and it has run once, as its record shows if it keeps one. -/
theorem applyDeclared_agrees (c : Cascade σ α) (serial : Nat) (selector : String) (p : Property α κ) (object : κ)
    (scope : Scope) :
    (∀ raw, c.declared? selector p.name scope = some raw →
      c.applyDeclared serial selector p object scope = c.apply serial p object raw [] scope ∧
      c.resolve serial selector p scope =
        (c.registry.parse serial p.type (c.expand raw scope).1).map fun v => some (p.mapKeywords v)) ∧
    (c.declared? selector p.name scope = none →
      c.applyDeclared serial selector p object scope = (.ok false, object)) ∧
    ∀ (τ ν : Type) (view? : κ → Option τ) (review : τ → κ) (convert : Value α → Option ν)
      (set : τ → ν → List (Value α) → τ),
      (p.IsTyped view? review convert set →
        (∀ raw parameters,
          Settles view? review convert set
            ((c.parseValue serial p.type raw scope).map fun v => some (p.mapKeywords v))
            (p.transformParameters parameters) object (c.apply serial p object raw parameters scope)) ∧
        Settles view? review convert set (c.resolve serial selector p scope) [] object
          (c.applyDeclared serial selector p object scope)) ∧
      ∀ q : Property α (κ × Runs α ν),
        q.IsTyped (recordedView? view?) (recordedReview review) convert (recorded set) → ∀ runs,
          (∀ raw parameters,
            Counts convert ((c.parseValue serial q.type raw scope).map fun v => some (q.mapKeywords v))
              (q.transformParameters parameters) runs (c.apply serial q (object, runs) raw parameters scope)) ∧
          Counts convert (c.resolve serial selector q scope) [] runs
            (c.applyDeclared serial selector q (object, runs) scope) := by
  refine ⟨fun raw declared => ⟨applyDeclared_of_declared? declared object, resolve_of_declared? declared⟩,
    fun none => applyDeclared_of_not_declared? none object, fun τ ν view? review convert set => ⟨fun made => ?_, ?_⟩⟩
  · exact ⟨fun raw parameters => apply_settles made c serial object raw parameters scope,
      applyDeclared_settles made c serial selector object scope⟩
  · intro q made runs
    exact ⟨fun raw parameters => (apply_settles made c serial (object, runs) raw parameters scope).counts,
      (applyDeclared_settles made c serial selector (object, runs) scope).counts⟩

/-- A sheet puts the text of labels in the middle, and says nothing of views. The same is not set where there is no
text, and it is set once where there is one. -/
theorem applyDeclared_agrees_align :
    let label : Rule := ⟨[⟨⟨.element "Label", []⟩, []⟩], [⟨"align", "center"⟩]⟩
    let sheets : Repository Unit := .empty () Content.parse none .standard
    let c : Cascade Unit Float := .of (sheets.register (.of ⟨"mem://label.css"⟩ ⟨[label], .empty⟩)).2 .standard
    let numbers := (KeywordTable.ofList [("left", 0), ("center", 2)] 0).maskFor
    let set (_ v : Int64) (_ : List (Value Float)) : Int64 := v
    let align : Property Float (Option Int64) :=
      (Property.typed "align" .keywords "Label" id some Value.toEnumValue? set).withMapping numbers
    let counted : Property Float (Option Int64 × Runs Float Int64) :=
      (Property.typed "align" .keywords "Label" (recordedView? id) (recordedReview some) Value.toEnumValue?
        (recorded set)).withMapping numbers
    (c.declared? "Label" "align" .all = some "center" ∧
        c.applyDeclared 0 "Label" align (some 0) .all = c.apply 0 align (some 0) "center" [] .all) ∧
      (c.declared? "View" "align" .all = none ∧
        c.applyDeclared 0 "View" align (some 0) .all = (.ok false, some 0)) ∧
      (align.IsTyped id some Value.toEnumValue? set ∧ (c.applyDeclared 0 "Label" align (some 0) .all).2 = some 2 ∧
        (c.applyDeclared 0 "Label" align none .all).2 = none) ∧
      counted.IsTyped (recordedView? id) (recordedReview some) Value.toEnumValue? (recorded set) ∧
        (c.applyDeclared 0 "Label" counted (some 0, []) .all).2.2.length = 1 := by
  intro label sheets c numbers set align counted
  have declared : c.declared? "Label" "align" .all = some "center" := by decide +kernel
  have none : c.declared? "View" "align" .all = Option.none := by decide +kernel
  have made : align.IsTyped id some Value.toEnumValue? set := .withMapping (.typed _ _ _) _
  have made' : counted.IsTyped (recordedView? id) (recordedReview some) Value.toEnumValue? (recorded set) :=
    .withMapping (.typed _ _ _) _
  have agrees (selector : String) (object : Option Int64) := applyDeclared_agrees c 0 selector align object .all
  have apart := (((agrees "Label" Option.none).2.2 Int64 Int64 id some Value.toEnumValue? set).1 made).2
  have counts := (((agrees "Label" (some 0)).2.2 Int64 Int64 id some Value.toEnumValue? set).2 counted made' []).2
  refine ⟨⟨declared, ((agrees "Label" (some 0)).1 _ declared).1⟩, ⟨none, (agrees "View" (some 0)).2.1 none⟩,
    ⟨made, by decide +kernel, apart.kept (mt Reading.toOption_eq_some_iff.mpr (by decide +kernel))⟩, made', ?_⟩
  obtain ⟨value, v, read, converted, once⟩ := counts.once (Reading.toOption_eq_some_iff.mp (by decide +kernel))
  rw [once]
  rfl

end Cascade

end Stylebook
