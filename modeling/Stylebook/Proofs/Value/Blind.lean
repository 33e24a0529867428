import Stylebook.Value.Color
import Stylebook.Value.Figure
import Stylebook.Value.Font
import Stylebook.Value.Transform

/-!
# Readings do not see where tokens stand

A value is read from its tokens alone: moved to another place, the same tokens give the same result and the same flaw,
and the tokens that are left are the same ones, moved (`Reading.Blind`). A step is blind if it is put together from
blind steps, and where a step hands on a token, what follows must make the same of that token at either place. The
readers that recurse on the tokens themselves are blind by the induction of their own recursion.
-/

set_option autoImplicit false

namespace Stylebook

/-- The token, `d` bytes further on. -/
def Token.shift (d : Nat) (t : Token) : Token :=
  { t with start := d + t.start }

section Shift

variable (d : Nat) (t : Token)

@[simp] theorem Token.kind_shift : (t.shift d).kind = t.kind := rfl

@[simp] theorem Token.chars_shift : (t.shift d).chars = t.chars := rfl

@[simp] theorem Token.text_shift : (t.shift d).text = t.text := rfl

@[simp] theorem Token.number?_shift {α : Type} [Scalar α] : (t.shift d).number? (α := α) = t.number? := rfl

@[simp] theorem Reading.isKeyword_shift (word : String) : isKeyword word (t.shift d) = isKeyword word t := rfl

@[simp] theorem Reading.functionOf_shift : functionOf (t.shift d) = functionOf t := rfl

end Shift

namespace Reading

variable {α β γ : Type}

/-- An outcome with the tokens that are left moved. -/
def moved (d : Nat) (outcome : Except Flaw β × List Token) : Except Flaw β × List Token :=
  (outcome.1, outcome.2.map (Token.shift d))

/-- A step that does the same wherever the tokens stand. -/
def Blind (r : Reading β) : Prop :=
  ∀ d ts, r (ts.map (Token.shift d)) = moved d (r ts)

/-! ## Putting steps together -/

theorem blind_pure (x : β) : Blind (pure x : Reading β) := fun _ _ => rfl

theorem blind_fail (e : Flaw) : Blind (fail e : Reading β) := fun _ _ => rfl

theorem blind_lift (result : Except Flaw β) : Blind (lift result) := fun _ _ => rfl

theorem continueWith_moved (d : Nat) (outcome : Except Flaw β × List Token) {f : β → Reading γ}
    (hf : ∀ x, Blind (f x)) : continueWith (moved d outcome) f = moved d (continueWith outcome f) := by
  obtain ⟨result, rest⟩ := outcome
  cases result with
  | ok x => exact hf x d rest
  | error e => rfl

theorem Blind.bind {r : Reading β} {f : β → Reading γ} (hr : Blind r) (hf : ∀ x, Blind (f x)) :
    Blind (r >>= f) := by
  intro d ts
  show continueWith (r (ts.map (Token.shift d))) f = moved d (continueWith (r ts) f)
  rw [hr d ts, continueWith_moved d _ hf]

theorem Blind.attempt {r : Reading β} (hr : Blind r) : Blind (attempt r) := by
  intro d ts
  unfold Reading.attempt
  rw [hr d ts]
  obtain ⟨result, rest⟩ := r ts
  cases result with
  | ok x => rfl
  | error e => rfl

theorem consTo_moved (d : Nat) (x : α) (outcome : Except Flaw (List α) × List Token) :
    consTo x (moved d outcome) = moved d (consTo x outcome) := by
  obtain ⟨result, rest⟩ := outcome
  cases result with
  | ok xs => rfl
  | error e => rfl

/-! ## Single steps -/

theorem blind_peekKind? : Blind peekKind? := by
  intro d ts
  cases ts with
  | nil => rfl
  | cons t ts => rfl

theorem blind_eat (kind : TokenKind) : Blind (eat kind) := by
  intro d ts
  cases ts with
  | nil => rfl
  | cons t ts =>
    by_cases here : t.kind = kind <;> simp [eat, moved, here]

theorem blind_eatKeyword (word : String) : Blind (eatKeyword word) := by
  intro d ts
  cases ts with
  | nil => rfl
  | cons t ts =>
    by_cases here : isKeyword word t = true <;> simp [eatKeyword, moved, here]

theorem blind_finish : Blind finish := by
  intro d ts
  cases ts with
  | nil => rfl
  | cons t ts => rfl

/-- What follows a token that was read sees it at either place. -/
theorem blind_expect_bind {kind : TokenKind} {f : Token → Reading γ} (same : ∀ d t, f (Token.shift d t) = f t)
    (hf : ∀ t, Blind (f t)) : Blind (expect kind >>= f) := by
  intro d ts
  cases ts with
  | nil => rfl
  | cons t ts =>
    show continueWith (expect kind (t.shift d :: ts.map (Token.shift d))) f =
      moved d (continueWith (expect kind (t :: ts)) f)
    by_cases here : t.kind = kind
    · simp only [expect, Token.kind_shift, here, if_true, continueWith, same]
      exact hf t d ts
    · simp only [expect, Token.kind_shift, here, if_false]
      rfl

theorem blind_functionName?_bind {f : Option Token → Reading γ}
    (same : ∀ d t, f (some (Token.shift d t)) = f (some t)) (hf : ∀ x, Blind (f x)) :
    Blind (functionName? >>= f) := by
  intro d ts
  match ts with
  | [] => exact hf none d []
  | [t] => exact hf none d [t]
  | t :: u :: ts =>
    show continueWith (functionName? (t.shift d :: u.shift d :: ts.map (Token.shift d))) f =
      moved d (continueWith (functionName? (t :: u :: ts)) f)
    by_cases here : t.kind = .ident ∧ u.kind = .parenOpen
    · simp only [functionName?, Token.kind_shift, here, and_self, if_true, continueWith, same]
      exact hf (some t) d ts
    · simp only [functionName?, Token.kind_shift, here, if_false, continueWith]
      exact hf none d (t :: u :: ts)

/-! ## Numbers -/

theorem blind_item {value? : Token → Option α} (same : ∀ d t, value? (Token.shift d t) = value? t) :
    Blind (item value?) := by
  intro d ts
  cases ts with
  | nil => rfl
  | cons t ts =>
    simp only [List.map_cons, item, same]
    cases value? t <;> rfl

theorem blind_items {value? : Token → Option α} (same : ∀ d t, value? (Token.shift d t) = value? t) (first : Bool) :
    Blind (items value? first) := by
  intro d ts
  fun_induction items value? first ts with
  | case1 => rfl
  | case2 first t ts close =>
    rw [List.map_cons, items.eq_def]
    simp only [Token.kind_shift, close, if_true]
    rfl
  | case3 first t close comma =>
    simp only [List.map_cons, List.map_nil, items, Token.kind_shift, comma, and_self, if_true]
    rfl
  | case4 first t close comma u ts n value ih =>
    simp only [List.map_cons, items, Token.kind_shift, comma, and_self, if_true, same, value, ih]
    exact consTo_moved d n _
  | case5 first t close comma u ts value =>
    simp only [List.map_cons, items, Token.kind_shift, comma, and_self, if_true, same, value]
    rfl
  | case6 first t ts close comma n value ih =>
    rw [List.map_cons, items.eq_def]
    simp only [Token.kind_shift, close, comma, if_false, same, value, ih]
    exact consTo_moved d n _
  | case7 first t ts close comma value =>
    rw [List.map_cons, items.eq_def]
    simp only [Token.kind_shift, close, comma, if_false, same, value]
    rfl

theorem blind_number [Scalar α] : Blind (number : Reading α) :=
  blind_item fun _ _ => rfl

theorem blind_looseNumber [Scalar α] : Blind (looseNumber : Reading α) :=
  blind_item fun _ _ => rfl

theorem blind_numericParameters [Scalar α] (word : String) : Blind (numericParameters word : Reading (List α)) := by
  have bare : Blind (items (Token.number? (α := α)) true) := blind_items (fun _ _ => rfl) true
  refine .bind (blind_eatKeyword word) fun named => ?_
  refine .bind blind_peekKind? fun kind => ?_
  split
  · refine blind_expect_bind (fun _ _ => rfl) fun _ => .bind bare fun values => ?_
    exact blind_expect_bind (fun _ _ => rfl) fun _ => blind_pure values
  · exact bare

end Reading

open Reading

variable {α : Type} [Scalar α]

/-! ## The readings of each type -/

theorem blind_takeFigure {S : Type → Type} [Shape S] : Blind (takeFigure : Reading (S α)) := by
  refine .bind (blind_numericParameters _) fun values => .bind blind_finish fun _ => ?_
  split
  · exact blind_pure _
  · exact blind_fail _

namespace Color

theorem blind_channelList (first : Bool) : Blind (channelList first : Reading (List α)) := by
  intro d ts
  fun_induction channelList (α := α) first ts with
  | case1 => rfl
  | case2 first t ts close =>
    rw [List.map_cons, channelList.eq_def]
    simp only [Token.kind_shift, close, if_true]
    rfl
  | case3 t ts close n value ih =>
    rw [List.map_cons, channelList.eq_def]
    simp only [Token.kind_shift, close, if_true, if_false, Token.number?_shift, value, ih]
    exact consTo_moved d n _
  | case4 t ts close value =>
    rw [List.map_cons, channelList.eq_def]
    simp only [Token.kind_shift, close, if_true, if_false, Token.number?_shift, value]
    rfl
  | case5 first t close start comma =>
    rw [List.map_cons, channelList.eq_def]
    simp only [Token.kind_shift, start, comma, if_true]
    rfl
  | case6 first t close start comma u ts n value ih =>
    rw [List.map_cons, List.map_cons, channelList.eq_def]
    simp only [Token.kind_shift, start, comma, if_true, Token.number?_shift, value, ih]
    exact consTo_moved d n _
  | case7 first t close start comma u ts value =>
    rw [List.map_cons, List.map_cons, channelList.eq_def]
    simp only [Token.kind_shift, start, comma, if_true, Token.number?_shift, value]
    rfl
  | case8 first t ts close start comma =>
    rw [List.map_cons, channelList.eq_def]
    simp only [Token.kind_shift, close, start, comma, if_false]
    rfl

theorem blind_takeRgb : Blind (takeRgb : Reading (Color α)) := by
  refine .bind (blind_channelList true) fun values => ?_
  split
  · exact blind_pure _
  · exact blind_fail _

theorem blind_takeRgba : Blind (takeRgba : Reading (Color α)) := by
  refine .bind (blind_channelList true) fun values => ?_
  split
  · exact blind_pure _
  · exact blind_fail _

theorem blind_takeAdjustment (function : String) (c : Color α) : Blind (takeAdjustment function c) := by
  refine blind_expect_bind (fun _ _ => rfl) fun _ => .bind blind_looseNumber fun amount => ?_
  refine blind_expect_bind (fun _ _ => rfl) fun _ => ?_
  split
  · exact blind_pure _
  · exact blind_fail _

theorem blind_takeSimple : Blind (takeSimple : Reading (Color α)) := by
  intro d ts
  cases ts with
  | nil => rfl
  | cons t ts =>
    simp only [List.map_cons, takeSimple, Token.kind_shift, Token.chars_shift, Token.text_shift]
    split
    · split <;> rfl
    · split <;> rfl
    · rfl

theorem blind_take : Blind (take : Reading (Color α)) := by
  intro d ts
  fun_induction take (α := α) ts with
  | case1 t u inner here rgb =>
    simp only [List.map_cons, take, Token.kind_shift, here, and_self, if_true, functionOf_shift, rgb]
    exact blind_takeRgb d inner
  | case2 t u inner here rgb rgba =>
    simp only [List.map_cons, take, Token.kind_shift, here, and_self, if_true, functionOf_shift, rgba]
    exact blind_takeRgba d inner
  | case3 t u inner here rgb rgba ih =>
    simp only [List.map_cons, take, Token.kind_shift, here, and_self, if_true, functionOf_shift, rgb, if_false, rgba,
      ih]
    exact continueWith_moved d _ (blind_takeAdjustment _)
  | case4 t u inner here =>
    simp only [List.map_cons, take, Token.kind_shift, here, if_false]
    exact blind_takeSimple d (t :: u :: inner)
  | case5 ts few =>
    match ts, few with
    | [], _ => exact blind_takeSimple d []
    | [t], _ => exact blind_takeSimple d [t]
    | t :: u :: inner, few => exact (few t u inner rfl).elim

end Color

namespace Font

theorem blind_takeComponent : Blind (takeComponent : Reading (Component α)) := by
  intro d ts
  cases ts with
  | nil => rfl
  | cons t ts =>
    have size : Blind (looseNumber >>= fun n => pure (.size n) : Reading (Component α)) :=
      .bind blind_looseNumber fun n => blind_pure _
    have next : ((ts.map (Token.shift d)).head?.map fun u => u.kind) = ts.head?.map fun u => u.kind := by
      cases ts <;> rfl
    rw [List.map_cons, takeComponent.eq_def, takeComponent.eq_def]
    simp only [Token.kind_shift, Token.chars_shift, Token.text_shift, next]
    split
    · exact size d (t :: ts)
    · exact size d (t :: ts)
    · rfl
    · rfl
    · split <;> rfl
    · rfl

theorem blind_takePlain (usual : α) (second : Bool) : Blind (takePlain usual second) := by
  refine .bind blind_takeComponent fun c => ?_
  split
  · refine .bind (Blind.attempt (.bind (blind_eat _) fun _ => blind_takeComponent)) fun d? => ?_
    split
    · exact blind_pure _
    · exact blind_pure _
  · exact blind_pure _

theorem blind_takeScaling {β : Type} (f : Font β) : Blind (takeScaling f) := by
  refine .bind (blind_eat _) fun comma => ?_
  split
  · refine blind_expect_bind (fun _ _ => rfl) fun t => ?_
    split
    · exact blind_expect_bind (fun _ _ => rfl) fun _ => blind_pure _
    · exact blind_fail _
  · exact blind_expect_bind (fun _ _ => rfl) fun _ => blind_pure _

theorem blind_takeAmount (f : Font α) : Blind (takeAmount f) := by
  refine blind_expect_bind (fun _ _ => rfl) fun _ => .bind blind_number fun amount => ?_
  exact blind_expect_bind (fun _ _ => rfl) fun _ => blind_pure _

theorem blind_resize (function : String) (arguments : Font α × α) : Blind (resize function arguments) := by
  unfold resize
  split
  · exact blind_pure _
  · exact blind_fail _

theorem blind_take (usual : α) (second : Bool) : Blind (take usual second) := by
  intro d ts
  fun_induction take usual second ts with
  | case1 second t u inner here scaled ih =>
    simp only [List.map_cons, take, Token.kind_shift, here, and_self, if_true, functionOf_shift, scaled, ih]
    exact continueWith_moved d _ blind_takeScaling
  | case2 second t u inner here scaled arguments rest found ih =>
    simp only [List.map_cons, take, Token.kind_shift, here, and_self, if_true, functionOf_shift, scaled, if_false, ih,
      continueWith_moved d _ blind_takeAmount, found]
    exact blind_resize _ _ d rest
  | case3 second t u inner here scaled e rest failed ih ih' =>
    -- plain fonts of two components cannot be read here, so those of one are, at either place
    simp only [List.map_cons, take, Token.kind_shift, here, and_self, if_true, functionOf_shift, scaled, if_false, ih,
      ih', continueWith_moved d _ blind_takeAmount, failed]
    exact continueWith_moved d _ (blind_resize _)
  | case4 second t u inner here =>
    simp only [List.map_cons, take, Token.kind_shift, here, if_false]
    exact blind_takePlain usual second d (t :: u :: inner)
  | case5 second ts few =>
    match ts, few with
    | [], _ => exact blind_takePlain usual second d []
    | [t], _ => exact blind_takePlain usual second d [t]
    | t :: u :: inner, few => exact (few t u inner rfl).elim

end Font

namespace Transform

theorem blind_takeArguments : Blind (takeArguments : Reading (List α)) := by
  intro d ts
  unfold takeArguments
  rw [blind_items (fun _ _ => rfl) true d ts]
  obtain ⟨result, rest⟩ := items Token.looseNumber? true ts
  cases result with
  | error e => rfl
  | ok values =>
    cases rest with
    | nil => rfl
    | cons t rest => rfl

variable [Trigonometric α]

theorem blind_takeStep : Blind (takeStep : Reading (Transform α)) := by
  refine blind_functionName?_bind (fun _ _ => rfl) fun t => ?_
  split
  · exact blind_fail _
  · exact .bind blind_takeArguments fun arguments => blind_lift _

theorem blind_takeSteps (t : Transform α) : Blind (takeSteps t) := by
  intro d ts
  fun_induction takeSteps t ts with
  | case1 t ts last =>
    obtain rfl := List.isEmpty_iff.mp last
    rw [List.map_nil, takeSteps]
    rfl
  | case2 t ts more e rest failed =>
    have here := blind_takeStep (α := α) d ts
    rw [failed] at here
    rw [takeSteps, if_neg (by simpa using more)]
    split <;> simp_all [moved]
  | case3 t ts more u rest found ih =>
    have here := blind_takeStep (α := α) d ts
    rw [found] at here
    rw [takeSteps, if_neg (by simpa using more)]
    split <;> simp_all [moved]

theorem blind_take : Blind (take : Reading (Transform α)) := by
  refine .bind (blind_eatKeyword _) fun identity => ?_
  split
  · exact .bind blind_finish fun _ => blind_pure _
  refine .bind (blind_eatKeyword _) fun none => ?_
  split
  · exact .bind blind_finish fun _ => blind_pure _
  exact .bind blind_takeStep fun first => blind_takeSteps first

end Transform

end Stylebook
