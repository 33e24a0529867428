import Stylebook.Value.Basic
import Stylebook.Value.Reading

/-!
# Reading transforms

A transform is the word `identity` or `none`, or a row of steps that are applied from left to right. A
step is a function with numbers in any unit as arguments.
-/

set_option autoImplicit false

namespace Stylebook

namespace Transform

variable {α : Type} [Scalar α]

/-- Takes numbers up to and including a closing parenthesis. -/
def takeArguments : Reading (List α) := fun ts =>
  match Reading.items Token.looseNumber? true ts with
  | (.error e, rest) => (.error e, rest)
  | (.ok _, []) => (.error (.expectedNumber none), [])
  | (.ok values, _ :: rest) => (.ok values, rest)

/-- What a step means, or why it means nothing. -/
def ofStep [Trigonometric α] (function : String) (arguments : List α) :
    Except Flaw (Transform α) :=
  match function, arguments with
  | "rotate", [degrees] => .ok (rotation degrees)
  | "scale", [s] => .ok (scale s s)
  | "scale", [sx, sy] => .ok (scale sx sy)
  | "translate", [t] => .ok (translation t t)
  | "translate", [tx, ty] => .ok (translation tx ty)
  | function, arguments =>
    if function = "rotate" ∨ function = "scale" ∨ function = "translate" then
      .error (.argumentCount function arguments.length)
    else .error (.unknownTransform function)

def takeStep [Trigonometric α] : Reading (Transform α) := do
  match ← Reading.functionName? with
  | none => Reading.fail .expectedTransform
  | some t =>
    let arguments ← takeArguments
    Reading.lift (ofStep (Reading.functionOf t) arguments)

theorem takeArguments_length {ts rest : List Token} {xs : List α}
    (h : takeArguments ts = (.ok xs, rest)) : rest.length < ts.length := by
  unfold takeArguments at h
  split at h
  · simp at h
  · simp at h
  · rename_i values t r hr
    simp only [Prod.mk.injEq] at h
    have := Reading.items_length hr
    simp only [List.length_cons] at this
    rw [← h.2]; omega

variable [Trigonometric α]

/-- A step takes at least one token. -/
theorem takeStep_length {ts rest : List Token} {t : Transform α}
    (h : takeStep ts = (.ok t, rest)) : rest.length < ts.length := by
  match ts with
  | [] => simp [takeStep, bind, Reading.functionName?, Reading.fail] at h
  | [u] => simp [takeStep, bind, Reading.functionName?, Reading.fail] at h
  | u :: v :: inner =>
    simp only [takeStep, bind, Reading.functionName?] at h
    by_cases hk : u.kind = .ident ∧ v.kind = .parenOpen
    · simp only [hk, and_self, if_true] at h
      split at h
      · rename_i xs r hr
        have := takeArguments_length (α := α) hr
        simp only [Reading.lift, Prod.mk.injEq] at h
        rw [← h.2]
        simp only [List.length_cons]; omega
      · simp at h
    · simp [hk, Reading.fail] at h

/-- Takes steps up to the end, each applied after those before it. -/
def takeSteps (t : Transform α) (ts : List Token) : Except Flaw (Transform α) × List Token :=
  if ts.isEmpty then (.ok t, [])
  else
    match _h : takeStep (α := α) ts with
    | (.error e, rest) => (.error e, rest)
    | (.ok u, rest) => takeSteps (t.concat u) rest
  termination_by ts.length
  decreasing_by exact takeStep_length _h

/-- Takes a transform that fills the rest of the tokens. -/
def take : Reading (Transform α) := do
  if ← Reading.eatKeyword "identity" then
    Reading.finish
    return identity
  if ← Reading.eatKeyword "none" then
    Reading.finish
    return identity
  let first ← takeStep
  takeSteps first

end Transform

def readTransform {α : Type} [Scalar α] [Trigonometric α] (type : ValueType) (raw : List Char) :
    Except ValueError (Value α) :=
  (Reading.of type raw Transform.take).map .transform

end Stylebook
