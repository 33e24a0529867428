import Stylebook.Proofs.Value.Backtracking
import Stylebook.Value.Font

/-!
# Attempts of the reader of fonts

No reader takes back more than the one of fonts: a second component that turns out to be none, and the arguments of a
call, which are read again if a comma was taken for the font that belonged to the call. Calls stand in calls, and so these
attempts stand in one another.

Here the reader is written down as a script, with calls up to any depth (`script`). On tokens that are too few for more,
it is the run of this script (`run_script`). So it leaves what the operations of the script leave without those that were
taken back (`take_snd`), and no token comes back that was gone before (`steady_take`).
-/

set_option autoImplicit false

namespace Stylebook

open Reading

namespace Reading

variable {α β γ : Type} [Scalar α]

/-- A script that fails where an operation does. -/
def Script.require (op : Operation α (Except Flaw γ)) (next : γ → Script α β) : Script α β :=
  .call op fun
    | .ok x => next x
    | .error e => .done (.error e)

theorem Script.run_require {op : Operation α (Except Flaw γ)} {r : Reading γ} (stands : op.step = caught r)
    (next : γ → Script α β) : (Script.require op next).run = r >>= fun x => (next x).run := by
  funext ts
  show continueWith (op.step ts) _ = continueWith (r ts) _
  rw [stands, caught]
  cases r ts with
  | mk result rest => cases result <;> rfl

end Reading

namespace Font

variable {α : Type} [Scalar α]

/-! ## The reader as a script -/

/-- A component of a plain font that starts with the token `t`. -/
def componentBehind (t : Token) : Script α (Component α) :=
  match t.kind with
  | .number => .require .looseNumber fun n => .done (.ok (.size n))
  | .dimension => .require .looseNumber fun n => .done (.ok (.size n))
  | .doubleQuoted => .call .advance fun _ => .done (.ok (.name (Text.trimQuotes t.chars)))
  | .singleQuoted => .call .advance fun _ => .done (.ok (.name (Text.trimQuotes t.chars)))
  | .ident =>
    .call .peekSecond fun kind? =>
      if kind? = some .parenOpen then .done (.error (.expectedFont (some t.text)))
      else .call .advance fun _ => .done (.ok (.name t.chars))
  | _ => .done (.error (.expectedFont (some t.text)))

def componentScript : Script α (Component α) :=
  .call .peek fun
    | none => .done (.error (.expectedFont none))
    | some t => componentBehind t

/-- A plain font, with an attempt to take a second component. -/
def plainScript (usual : α) (second : Bool) : Script α (Font α) :=
  componentScript.bind fun c =>
    if second then
      .attempt (.call (.eat .comma) fun _ => componentScript) fun
        | some d => .done (.ok (ofComponents usual [c, d]))
        | none => .done (.ok (ofComponents usual [c]))
    else .done (.ok (ofComponents usual [c]))

def scalingScript (f : Font α) : Script α (Font α) :=
  .call (.eat .comma) fun
    | true => .require (.expect .ident) fun t =>
      match TextStyle.named? t.chars with
      | some s => .require (.expect .parenClose) fun _ => .done (.ok (f.scaled s))
      | none => .done (.error (.unknownTextStyle t.text))
    | false => .require (.expect .parenClose) fun _ => .done (.ok (f.scaled .body))

def amountScript (f : Font α) : Script α (Font α × α) :=
  .require (.expect .comma) fun _ => .require .number fun amount =>
    .require (.expect .parenClose) fun _ => .done (.ok (f, amount))

def resizeScript (function : String) (arguments : Font α × α) : Script α (Font α) :=
  .done (match resized? function arguments.1 arguments.2 with
    | some f => .ok f
    | none => .error (.unknownFontFunction function))

/-- A call of the function `t`, with `font` for its first argument. That and the number behind it are attempted with plain
fonts of two components, then taken with plain fonts of one. -/
def callScript (font : Bool → Script α (Font α)) (t : Token) : Script α (Font α) :=
  if functionOf t = "scaledfont" then (font true).bind scalingScript
  else
    .attempt ((font true).bind amountScript) fun
      | some arguments => resizeScript (functionOf t) arguments
      | none => ((font false).bind amountScript).bind (resizeScript (functionOf t))

/-- A font with calls in calls up to the depth `n`. -/
def script (usual : α) : Nat → Bool → Script α (Font α)
  | 0, second => plainScript usual second
  | n + 1, second =>
    .call .functionName fun
      | none => plainScript usual second
      | some t => callScript (script usual n) t

/-! ## The run of the script is the reader -/

theorem run_componentScript : (componentScript : Script α _).run = takeComponent := by
  funext ts
  cases ts with
  | nil => rfl
  | cons t rest =>
    show (componentBehind t).run (t :: rest) = takeComponent (t :: rest)
    rw [takeComponent, componentBehind]
    cases t.kind with
    | number => exact congrFun (Script.run_require (r := looseNumber) rfl _) (t :: rest)
    | dimension => exact congrFun (Script.run_require (r := looseNumber) rfl _) (t :: rest)
    | ident =>
      show (ite (rest.head?.map (·.kind) = some .parenOpen) _ _ : Script α (Component α)).run (t :: rest) =
        ite (rest.head?.map (·.kind) = some .parenOpen) _ _
      by_cases call : rest.head?.map (·.kind) = some .parenOpen
      · rw [if_pos call, if_pos call]
        rfl
      · rw [if_neg call, if_neg call]
        rfl
    | _ => rfl

theorem run_plainScript (usual : α) (second : Bool) : (plainScript usual second).run = takePlain usual second := by
  rw [plainScript, Script.run_bind, run_componentScript]
  refine bind_congr fun c => ?_
  cases second with
  | false => rfl
  | true =>
    show Reading.attempt (Reading.eat .comma >>= fun _ => componentScript.run) >>= _ = _
    rw [run_componentScript]
    refine bind_congr fun d? => ?_
    cases d? <;> rfl

theorem run_scalingScript (f : Font α) : (scalingScript f).run = takeScaling f := by
  refine bind_congr fun named => ?_
  cases named with
  | true =>
    refine (Script.run_require (r := expect .ident) rfl _).trans (bind_congr fun t => ?_)
    cases TextStyle.named? t.chars with
    | none => rfl
    | some s => exact Script.run_require (r := expect .parenClose) rfl _
  | false => exact Script.run_require (r := expect .parenClose) rfl _

theorem run_amountScript (f : Font α) : (amountScript f).run = takeAmount f := by
  refine (Script.run_require (r := expect .comma) rfl _).trans (bind_congr fun _ => ?_)
  refine (Script.run_require (r := number) rfl _).trans (bind_congr fun amount => ?_)
  exact Script.run_require (r := expect .parenClose) rfl _

theorem run_resizeScript (function : String) (arguments : Font α × α) :
    (resizeScript function arguments).run = resize function arguments := by
  rw [resizeScript, resize]
  cases resized? function arguments.1 arguments.2 <;> rfl

section Calls

variable {usual : α} {font : Bool → Script α (Font α)} {inner : List Token}
  (reads : ∀ second, (font second).run inner = take usual second inner)
include reads

theorem run_arguments (second : Bool) :
    ((font second).bind amountScript).run inner = continueWith (take usual second inner) takeAmount := by
  rw [Script.run_bind, bind_eq, reads second]
  exact congrArg _ (funext run_amountScript)

theorem run_callScript {t u : Token} (call : t.kind = .ident ∧ u.kind = .parenOpen) (second : Bool) :
    (callScript font t).run inner = take usual second (t :: u :: inner) := by
  rw [take, if_pos call, callScript]
  by_cases scaled : functionOf t = "scaledfont"
  · rw [if_pos scaled, if_pos scaled, Script.run_bind, bind_eq, reads true]
    exact congrArg _ (funext run_scalingScript)
  · rw [if_neg scaled, if_neg scaled]
    have arguments := run_arguments reads
    cases tried : continueWith (take usual true inner) takeAmount with
    | mk result rest =>
      have first := (arguments true).trans tried
      -- The reader tries plain fonts of two components first, and looks at what is left only if that worked.
      cases result with
      | ok a =>
        rw [Script.run, bind_of_ok (attempt_of_ok first)]
        exact congrFun (run_resizeScript _ a) rest
      | error e =>
        rw [Script.run_attempt_of_error first, Script.run_bind, bind_eq, arguments false]
        exact congrArg _ (funext (run_resizeScript _))

end Calls

/-- Up to the depth of calls for which there are tokens, the script reads what the reader of fonts reads. -/
theorem run_script (usual : α) (n : Nat) (second : Bool) (ts : List Token) (few : ts.length ≤ n) :
    (script usual n second).run ts = take usual second ts := by
  induction n generalizing second ts with
  | zero =>
    obtain rfl : ts = [] := List.length_eq_zero_iff.mp (Nat.le_zero.mp few)
    exact congrFun (run_plainScript usual second) []
  | succ n ih =>
    match ts with
    | [] => exact congrFun (run_plainScript usual second) []
    | [t] => exact congrFun (run_plainScript usual second) [t]
    | t :: u :: inner =>
      rw [script, Script.run]
      by_cases call : t.kind = .ident ∧ u.kind = .parenOpen
      · have named : (Operation.functionName : Operation α _).step (t :: u :: inner) = (.ok (some t), inner) :=
          if_pos call
        have fewer : inner.length ≤ n := by
          simp only [List.length_cons] at few
          omega
        rw [bind_of_ok named]
        exact run_callScript (fun second => ih second inner fewer) call second
      · have unnamed : (Operation.functionName : Operation α _).step (t :: u :: inner) =
            (.ok none, t :: u :: inner) := if_neg call
        rw [bind_of_ok unnamed, take, if_neg call]
        exact congrFun (run_plainScript usual second) _

/-! ## What the reader leaves -/

/-- The reader of fonts leaves what the operations of its script leave, without those in attempts that failed. -/
theorem take_snd (usual : α) (second : Bool) (ts : List Token) :
    (take usual second ts).2 = Script.leave ((script usual ts.length second).kept ts) ts := by
  rw [Script.leave_kept, run_script usual ts.length second ts le_rfl]

/-- Whatever it takes back, the reader of fonts gives back no token that was gone before it. -/
theorem steady_take (usual : α) (second : Bool) : Steady (take usual second) := by
  intro ts
  rw [← run_script usual ts.length second ts le_rfl]
  exact Script.steady_run _ ts

end Font

end Stylebook
