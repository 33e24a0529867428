import Mathlib.Data.List.Chain
import Mathlib.Data.List.Forall2
import Mathlib.Logic.Function.Iterate
import Mathlib.Logic.Relation
import Stylebook.Proofs.Variables.Segments

/-!
# Expansion comes back from every value that it enters

Here expansion is taken in steps, with nothing to say beforehand how long it will go on. A text is expanded from left to
right. At a reference whose value may be put in, this text waits: the name goes on the stack and the value becomes the
text at hand. At the end of a value the name is taken off again, and the text that waited goes on behind its reference.
A name is not entered while it is on the stack, nor are more than `maxDepth` names at once. Nothing else keeps the values
from referring to each other in circles, or from being longer than the references to them.

`Descends` says which stacks there can be and what text is at hand under each; that it holds at every step
(`standing_of_runs`) gives all that is said of the stack. That every call ends is an induction on how many names may
still go on the stack, and within it on what is left of the text at hand: entering a value makes the first number
smaller, and going on behind a reference the second (`within_finish`). So the steps come to an end, and to the same text
that `expandAt` makes (`Variables.expand_returns`).
-/

set_option autoImplicit false

namespace Stylebook

namespace Reference

/-! ## The first segment of a text -/

/-- The first segment of a text and what stands behind it. -/
def next? : List Char → Option (Segment × List Char)
  | [] => none
  | c :: cs =>
    let mark := markLength (c :: cs)
    if mark = 0 then some (.plain c, cs)
    else
      let behind := cs.drop (mark - 1)
      some (.reference (c :: cs.take (mark - 1)) (behind.takeWhile isNameChar), behind.dropWhile isNameChar)

theorem next?_eq_none {cs : List Char} (none : next? cs = none) : cs = [] := by
  cases cs with
  | nil => rfl
  | cons c cs =>
    simp only [next?] at none
    split at none <;> cases none

theorem segments_of_next? {cs rest : List Char} {s : Segment} (next : next? cs = some (s, rest)) :
    segments cs = s :: segments rest := by
  cases cs with
  | nil => cases next
  | cons c cs =>
    rw [segments]
    simp only [next?] at next
    split at next
    · rename_i plain
      cases next
      rw [if_pos plain]
    · rename_i marked
      cases next
      rw [if_neg marked]

/-- Each segment takes at least one character. -/
theorem length_of_next? {cs rest : List Char} {s : Segment} (next : next? cs = some (s, rest)) :
    rest.length < cs.length := by
  cases cs with
  | nil => cases next
  | cons c cs =>
    simp only [next?] at next
    split at next
    · cases next
      exact Nat.lt_succ_self _
    · cases next
      have behind := (List.dropWhile_suffix isNameChar (l := cs.drop (markLength (c :: cs) - 1))).length_le
      rw [List.length_drop] at behind
      rw [List.length_cons]
      omega

theorem names_of_next? {cs rest : List Char} {s : Segment} (next : next? cs = some (s, rest)) :
    names cs = s.name?.toList ++ names rest := by
  rw [names, names, segments_of_next? next, List.filterMap_cons]
  cases s.name? <;> rfl

end Reference

open Reference

namespace Expansion

/-! ## Steps -/

/-- A text that is being expanded: what its front has become, whether anything was replaced in it, and what is left. -/
structure Frame where
  done : List Char
  changed : Bool
  rest : List Char
  deriving DecidableEq

/-- Where an expansion stands: the names whose values are being expanded, the latest one first, the text at hand, and the
texts that wait for a value, again with the latest one first. -/
structure State where
  stack : List (List Char)
  current : Frame
  waiting : List Frame
  deriving DecidableEq

/-- Before the first step. -/
def State.start (raw : List Char) : State :=
  ⟨[], ⟨[], false, raw⟩, []⟩

variable (lookup : List Char → Option (List Char))

/-- The text that a reference is entered for, unless its name is on the stack, the stack is full or it has no value. -/
def entered? (stack : List (List Char)) (name : List Char) : Option (List Char) :=
  if stack.contains name then none
  else if maxDepth ≤ stack.length then none
  else (lookup name).map Text.trimQuotes

/-- The next state of an expansion; none if it has come to its end. -/
def step? (s : State) : Option State :=
  match next? s.current.rest with
  | none =>
    match s.waiting with
    | [] => none
    | outer :: waiting => some ⟨s.stack.tail, ⟨outer.done ++ s.current.done, true, outer.rest⟩, waiting⟩
  | some (.plain c, rest) => some { s with current := ⟨s.current.done ++ [c], s.current.changed, rest⟩ }
  | some (.reference mark name, rest) =>
    match entered? lookup s.stack name with
    | none => some { s with current := ⟨s.current.done ++ (mark ++ name), s.current.changed, rest⟩ }
    | some value =>
      some ⟨name :: s.stack, ⟨[], false, value⟩, ⟨s.current.done, s.current.changed, rest⟩ :: s.waiting⟩

/-- The second state comes some steps after the first. -/
def Runs : State → State → Prop :=
  Relation.ReflTransGen fun s t => step? lookup s = some t

/-- The second state comes some steps after the first, and all that time at least the texts `waiting` wait. -/
def Within (waiting : List Frame) : State → State → Prop :=
  Relation.ReflTransGen fun s t => step? lookup s = some t ∧ waiting <:+ t.waiting

variable {lookup}

theorem Within.runs {waiting : List Frame} {s t : State} (within : Within lookup waiting s t) : Runs lookup s t :=
  Relation.ReflTransGen.mono (fun _ _ step => step.1) _ _ within

theorem Within.mono {inner outer : List Frame} {s t : State} (within : Within lookup inner s t) (more : outer <:+ inner) :
    Within lookup outer s t :=
  Relation.ReflTransGen.mono (fun _ _ step => ⟨step.1, more.trans step.2⟩) _ _ within

/-- States that are reached by a given number of steps. -/
theorem runs_of_steps {s t : State} (n : Nat) (steps : (· >>= step? lookup)^[n] (some s) = some t) :
    Runs lookup s t := by
  induction n generalizing t with
  | zero =>
    cases steps
    exact .refl
  | succ n ih =>
    rw [Function.iterate_succ_apply'] at steps
    obtain ⟨before, reached, step⟩ := Option.bind_eq_some_iff.mp steps
    exact (ih reached).tail step

/-! ## The stack -/

/-- The names `stack` can be on the stack, and `text` is then what is being expanded. -/
inductive Descends (lookup : List Char → Option (List Char)) (raw : List Char) : List (List Char) → List Char → Prop
  | start : Descends lookup raw [] raw
  | enter {stack : List (List Char)} {text name value : List Char} (below : Descends lookup raw stack text)
      (mentioned : name ∈ names text) (entered : entered? lookup stack name = some value) :
      Descends lookup raw (name :: stack) value

/-- No name is twice on the stack, there are not too many, each has a value, and the value of each mentions the name
above it. -/
structure Disciplined (lookup : List Char → Option (List Char)) (stack : List (List Char)) : Prop where
  distinct : stack.Nodup
  short : stack.length ≤ maxDepth
  resolvable : ∀ name ∈ stack, (lookup name).isSome
  mentioned : stack.IsChain fun above below =>
    ∃ value, lookup below = some value ∧ above ∈ names (Text.trimQuotes value)

theorem entered?_eq_some {stack : List (List Char)} {name text : List Char}
    (entered : entered? lookup stack name = some text) :
    name ∉ stack ∧ stack.length < maxDepth ∧ ∃ value, lookup name = some value ∧ Text.trimQuotes value = text := by
  unfold entered? at entered
  split at entered
  · cases entered
  · rename_i fresh
    split at entered
    · cases entered
    · rename_i room
      refine ⟨?_, Nat.not_le.mp room, Option.map_eq_some_iff.mp entered⟩
      intro old
      exact fresh (List.contains_iff_mem.mpr old)

theorem Descends.disciplined {raw text : List Char} {stack : List (List Char)} (h : Descends lookup raw stack text) :
    Disciplined lookup stack := by
  induction h with
  | start => exact ⟨List.nodup_nil, Nat.zero_le _, by simp, .nil⟩
  | @enter stack text name value below mentioned entered ih =>
    obtain ⟨fresh, room, raw', found, -⟩ := entered?_eq_some entered
    refine ⟨List.nodup_cons.mpr ⟨fresh, ih.distinct⟩, room, ?_, ?_⟩
    · intro n hn
      rcases List.mem_cons.mp hn with rfl | hn
      · rw [found]
        rfl
      · exact ih.resolvable n hn
    · cases below with
      | start => exact .singleton name
      | enter _ _ entered' =>
        -- the text in which the new name stands is the value of the name that was on top
        obtain ⟨-, -, value', found', rfl⟩ := entered?_eq_some entered'
        exact .cons_cons ⟨value', found', mentioned⟩ ih.mentioned

/-- What is left of the text is left of the text that belongs to the stack. -/
def Belongs (lookup : List Char → Option (List Char)) (raw : List Char) (stack : List (List Char)) (f : Frame) : Prop :=
  ∃ text, Descends lookup raw stack text ∧ names f.rest ⊆ names text

/-- The text at hand belongs to the stack, and those that wait belong to what was the stack when they began to wait. -/
def Standing (lookup : List Char → Option (List Char)) (raw : List Char) (s : State) : Prop :=
  List.Forall₂ (Belongs lookup raw) s.stack.tails (s.current :: s.waiting)

theorem Belongs.next {raw rest : List Char} {stack : List (List Char)} {f : Frame} {segment : Segment}
    (belongs : Belongs lookup raw stack f) (next : next? f.rest = some (segment, rest)) (done : List Char)
    (changed : Bool) : Belongs lookup raw stack ⟨done, changed, rest⟩ := by
  obtain ⟨text, descends, inside⟩ := belongs
  rw [names_of_next? next] at inside
  exact ⟨text, descends, fun name hname => inside (List.mem_append_right _ hname)⟩

theorem Belongs.enter {raw rest mark name value : List Char} {stack : List (List Char)} {f : Frame}
    (belongs : Belongs lookup raw stack f) (next : next? f.rest = some (.reference mark name, rest))
    (entered : entered? lookup stack name = some value) : Belongs lookup raw (name :: stack) ⟨[], false, value⟩ := by
  obtain ⟨text, descends, inside⟩ := belongs
  rw [names_of_next? next] at inside
  have mentioned : name ∈ names text := by
    apply inside
    exact List.mem_cons_self
  exact ⟨value, .enter descends mentioned entered, fun _ => id⟩

theorem Standing.head {raw : List Char} {s : State} (standing : Standing lookup raw s) :
    Belongs lookup raw s.stack s.current := by
  obtain ⟨stack, current, waiting⟩ := s
  cases stack <;> exact (List.forall₂_cons.mp standing).1

/-- What is at hand may be exchanged for something that belongs there as well. -/
theorem Standing.exchange {raw : List Char} {s : State} (standing : Standing lookup raw s) {f : Frame}
    (belongs : Belongs lookup raw s.stack f) : Standing lookup raw { s with current := f } := by
  obtain ⟨stack, current, waiting⟩ := s
  cases stack <;> exact List.forall₂_cons.mpr ⟨belongs, (List.forall₂_cons.mp standing).2⟩

theorem Standing.step {raw : List Char} {s t : State} (standing : Standing lookup raw s)
    (step : step? lookup s = some t) : Standing lookup raw t := by
  unfold step? at step
  split at step
  · obtain ⟨stack, current, waiting⟩ := s
    cases waiting with
    | nil => cases step
    | cons outer waiting =>
      cases step
      cases stack with
      | nil => cases (List.forall₂_cons.mp standing).2
      | cons name stack =>
        have outer : Standing lookup raw ⟨stack, outer, waiting⟩ := (List.forall₂_cons.mp standing).2
        apply outer.exchange
        exact outer.head
  · rename_i next
    cases step
    apply standing.exchange
    exact standing.head.next next _ _
  · rename_i mark name rest next
    split at step
    · cases step
      apply standing.exchange
      exact standing.head.next next _ _
    · rename_i value entered
      cases step
      refine List.forall₂_cons.mpr ⟨standing.head.enter next entered, ?_⟩
      exact standing.exchange (standing.head.next next _ _)

theorem standing_of_runs {raw : List Char} {s : State} (runs : Runs lookup (.start raw) s) : Standing lookup raw s := by
  induction runs with
  | refl => exact .cons ⟨raw, .start, fun _ => id⟩ .nil
  | tail _ step ih => exact ih.step step

/-! ## Every call comes back -/

variable (lookup) in
/-- The state in which the text at hand is expanded to its end. -/
def State.finish (s : State) : State :=
  let expanded := expandAt lookup (maxDepth - s.stack.length) s.stack s.current.rest
  { s with current := ⟨s.current.done ++ expanded.1, s.current.changed || expanded.2, []⟩ }

variable (lookup) in
/-- The state behind a reference, where its name has been resolved. -/
def State.resolve (s : State) (mark name rest : List Char) : State :=
  match entered? lookup s.stack name with
  | none => { s with current := ⟨s.current.done ++ (mark ++ name), s.current.changed, rest⟩ }
  | some value =>
    let expanded := expandAt lookup (maxDepth - (s.stack.length + 1)) (name :: s.stack) value
    { s with current := ⟨s.current.done ++ expanded.1, true, rest⟩ }

/-- Expansion by what the stack lets in. -/
theorem expandAt_eq (stack : List (List Char)) (raw : List Char) :
    expandAt lookup (maxDepth - stack.length) stack raw =
      replaceReferences (fun name => (entered? lookup stack name).map fun value =>
        (expandAt lookup (maxDepth - (stack.length + 1)) (name :: stack) value).1) (segments raw) := by
  cases depth : maxDepth - stack.length with
  | zero =>
    have full : maxDepth ≤ stack.length := Nat.sub_eq_zero_iff_le.mp depth
    simp [expandAt, entered?, full]
  | succ n =>
    have room : ¬maxDepth ≤ stack.length := by omega
    have below : maxDepth - (stack.length + 1) = n := by omega
    simp only [expandAt, entered?, room, if_false, below]
    congr 1
    funext name
    split
    · rfl
    · rw [Option.map_map]
      rfl

theorem finish_of_none {s : State} (none : next? s.current.rest = none) : s.finish lookup = s := by
  obtain ⟨stack, ⟨done, changed, rest⟩, waiting⟩ := s
  obtain rfl : rest = [] := next?_eq_none none
  simp [State.finish, expandAt_eq, segments, replaceReferences]

theorem finish_of_plain {s : State} {c : Char} {rest : List Char} (next : next? s.current.rest = some (.plain c, rest)) :
    s.finish lookup = State.finish lookup { s with current := ⟨s.current.done ++ [c], s.current.changed, rest⟩ } := by
  simp [State.finish, expandAt_eq, segments_of_next? next, replaceReferences]

theorem finish_of_reference {s : State} {mark name rest : List Char}
    (next : next? s.current.rest = some (.reference mark name, rest)) :
    s.finish lookup = (s.resolve lookup mark name rest).finish lookup := by
  unfold State.resolve
  cases entered : entered? lookup s.stack name <;>
    simp [State.finish, expandAt_eq s.stack, segments_of_next? next, replaceReferences, entered]

theorem stack_resolve (s : State) (mark name rest : List Char) : (s.resolve lookup mark name rest).stack = s.stack := by
  unfold State.resolve
  split <;> rfl

theorem waiting_resolve (s : State) (mark name rest : List Char) :
    (s.resolve lookup mark name rest).waiting = s.waiting := by
  unfold State.resolve
  split <;> rfl

theorem rest_resolve (s : State) (mark name rest : List Char) :
    (s.resolve lookup mark name rest).current.rest = rest := by
  unfold State.resolve
  split <;> rfl

/-- A reference is resolved if each value that may be entered is expanded to its end. -/
theorem within_resolve {s : State} {mark name rest : List Char}
    (next : next? s.current.rest = some (.reference mark name, rest))
    (inner : ∀ t : State, t.stack.length = s.stack.length + 1 → s.stack.length < maxDepth →
      Within lookup t.waiting t (t.finish lookup)) :
    Within lookup s.waiting s (s.resolve lookup mark name rest) := by
  cases entered : entered? lookup s.stack name with
  | none =>
    apply Relation.ReflTransGen.single
    simp [step?, next, entered, State.resolve]
  | some value =>
    let caller : Frame := ⟨s.current.done, s.current.changed, rest⟩
    let call : State := ⟨name :: s.stack, ⟨[], false, value⟩, caller :: s.waiting⟩
    have room := (entered?_eq_some entered).2.1
    have enter : step? lookup s = some call := by
      simp [step?, next, entered, call, caller]
    have body : Within lookup s.waiting call (call.finish lookup) :=
      (inner call rfl room).mono (List.suffix_cons _ _)
    have back : step? lookup (call.finish lookup) = some (s.resolve lookup mark name rest) := by
      simp [step?, State.finish, State.resolve, entered, call, caller, next?]
    have bottom : s.waiting <:+ (s.resolve lookup mark name rest).waiting :=
      (waiting_resolve s mark name rest).symm ▸ List.suffix_rfl
    exact (Relation.ReflTransGen.head ⟨enter, List.suffix_cons _ _⟩ body).tail ⟨back, bottom⟩

/-- The text at hand is expanded to its end. The induction is on how many names may still go on the stack, and then on
the length of what is left of the text. -/
theorem within_finish (s : State) : Within lookup s.waiting s (s.finish lookup) := by
  induction room : maxDepth - s.stack.length using Nat.strongRecOn generalizing s with
  | ind room deeper =>
    induction left : s.current.rest.length using Nat.strongRecOn generalizing s with
    | ind left later =>
      cases next : next? s.current.rest with
      | none =>
        rw [finish_of_none next]
        exact .refl
      | some found =>
        obtain ⟨segment, rest⟩ := found
        have shorter := length_of_next? next
        rw [left] at shorter
        cases segment with
        | plain c =>
          rw [finish_of_plain next]
          have step : step? lookup s =
              some { s with current := ⟨s.current.done ++ [c], s.current.changed, rest⟩ } := by
            simp [step?, next]
          have onward := later rest.length shorter { s with current := ⟨s.current.done ++ [c], s.current.changed, rest⟩ }
            room rfl
          exact .head ⟨step, List.suffix_rfl⟩ onward
        | reference mark name =>
          have call : Within lookup s.waiting s (s.resolve lookup mark name rest) := by
            apply within_resolve next
            intro t length free
            apply deeper _ _ t rfl
            omega
          have onward := later rest.length shorter (s.resolve lookup mark name rest)
            (by rw [stack_resolve, room]) (by rw [rest_resolve])
          rw [waiting_resolve] at onward
          rw [finish_of_reference next]
          exact call.trans onward

end Expansion

open Expansion

namespace Variables

/-- **Expansion returns, and keeps its stack in order.** Whatever the variables and the text, the steps come to an end,
with the expanded text. At every step no name is twice on the stack, there are at most `maxDepth` of them, all have
values, and each is mentioned in the value of the one below it. From every step on, the text at hand is expanded to its
end, with what is on the stack left as it is, and so is each reference in it resolved; the stack and the texts that wait
are then the same as before, and all the while these texts wait. -/
theorem expand_returns (v : Variables) (sheets : List Sheet) (raw : String) :
    let lookup := v.lookupChars sheets
    let start := State.start raw.toList
    (∃ last, Runs lookup start last ∧ step? lookup last = none ∧ last.stack = [] ∧
      v.expand sheets raw = (String.ofList last.current.done, last.current.changed)) ∧
    ∀ s, Runs lookup start s →
      Disciplined lookup s.stack ∧
      (∃ t, Within lookup s.waiting s t ∧ t.stack = s.stack ∧ t.waiting = s.waiting ∧
        let expanded := expandAt lookup (maxDepth - s.stack.length) s.stack s.current.rest
        t.current = ⟨s.current.done ++ expanded.1, s.current.changed || expanded.2, []⟩) ∧
      ∀ mark name rest, next? s.current.rest = some (.reference mark name, rest) →
        ∃ t, Within lookup s.waiting s t ∧ t.stack = s.stack ∧ t.waiting = s.waiting ∧ t.current.rest = rest := by
  intro lookup start
  refine ⟨⟨start.finish lookup, (within_finish start).runs, rfl, rfl, ?_⟩, ?_⟩
  · simp [start, State.start, State.finish, expand, lookup]
  · intro s runs
    obtain ⟨text, descends, -⟩ := (standing_of_runs runs).head
    refine ⟨descends.disciplined, ⟨s.finish lookup, within_finish s, rfl, rfl, rfl⟩, ?_⟩
    intro mark name rest next
    refine ⟨s.resolve lookup mark name rest, within_resolve next fun t _ _ => within_finish t, ?_⟩
    exact ⟨stack_resolve .., waiting_resolve .., rest_resolve ..⟩

/-- Two variables that refer to each other, at the reference that closes the circle: both are on the stack, and the
reference stays. -/
theorem expand_returns_circle :
    let v : Variables := ⟨.ofList [("a", "x @b"), ("b", "'y --a'")]⟩
    let lookup := v.lookupChars []
    let start := State.start "1 @a".toList
    let s : State := ⟨[['b'], ['a']], ⟨['y', ' '], false, "--a".toList⟩,
      [⟨['x', ' '], false, []⟩, ⟨['1', ' '], false, []⟩]⟩
    (∃ last, Runs lookup start last ∧ step? lookup last = none ∧ last.stack = [] ∧
      v.expand [] "1 @a" = (String.ofList last.current.done, last.current.changed)) ∧
    Runs lookup start s ∧ Disciplined lookup s.stack ∧
    (∃ t, Within lookup s.waiting s t ∧ t.stack = s.stack ∧ t.waiting = s.waiting ∧
      t.current = ⟨"y --a".toList, false, []⟩) ∧
    next? s.current.rest = some (.reference ['-', '-'] ['a'], []) ∧
    ∃ t, Within lookup s.waiting s t ∧ t.stack = s.stack ∧ t.waiting = s.waiting ∧ t.current.rest = [] := by
  intro v lookup start s
  obtain ⟨ends, always⟩ := expand_returns v [] "1 @a"
  have runs : Runs lookup start s := runs_of_steps 8 (by decide +kernel)
  obtain ⟨disciplined, ⟨t, within, stack, waiting, current⟩, resolved⟩ := always s runs
  have left : expandAt lookup (maxDepth - s.stack.length) s.stack s.current.rest = ("--a".toList, false) := by
    decide +kernel
  rw [left] at current
  have next : next? s.current.rest = some (.reference ['-', '-'] ['a'], []) := by decide +kernel
  exact ⟨ends, runs, disciplined, ⟨t, within, stack, waiting, current⟩, next, resolved _ _ _ next⟩

end Variables

end Stylebook
