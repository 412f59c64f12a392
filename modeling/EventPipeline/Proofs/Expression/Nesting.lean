import EventPipeline.Expression.Basic
import EventPipeline.Proofs.Expression.Height
import Mathlib

/-!
# How deep an evaluation nests

The evaluation of a node is one frame, in which the sub-expressions that are needed are evaluated. Here evaluation is
said with the frame as its unit (`evalNode`), so that it can be carried out with only so many frames one inside the
other (`evalWithin`). A tree needs no more of them than it is high (`evalWithin_eq`), and the height is what the sweep
finds: every sub-expression of a node is one of the children that the sweep goes down to (`mem_children_iff`). So two
hundred frames are enough for every expression that compiles (`sweptHeight_and_nesting`).
-/

namespace EventPipeline

namespace Expression

namespace Expr

/-! ### Sub-expressions -/

/-- An expression is a direct sub-expression of another one. -/
inductive Part : Expr → Expr → Prop where
  /-- What has the member. -/
  | target {target key : Expr} : Part target (.member target key)
  /-- Under which key. -/
  | key {target key : Expr} : Part key (.member target key)
  /-- An argument of a function. -/
  | argument {f : Builtin} {args : List Expr} {arg : Expr} : arg ∈ args → Part arg (.call f args)
  /-- What a prefix operator is applied to. -/
  | operand {op : UnaryOp} {operand : Expr} : Part operand (.unary op operand)
  /-- What stands on the left of an operator. -/
  | left {op : BinaryOp} {left right : Expr} : Part left (.binary op left right)
  /-- What stands on the right of an operator. -/
  | right {op : BinaryOp} {left right : Expr} : Part right (.binary op left right)
  /-- What a logical operator evaluates first. -/
  | first {op : LogicalOp} {first second : Expr} : Part first (.logical op first second)
  /-- What a logical operator evaluates if needed. -/
  | second {op : LogicalOp} {first second : Expr} : Part second (.logical op first second)
  /-- What a choice is made by. -/
  | test {test yes no : Expr} : Part test (.conditional test yes no)
  /-- The branch of a test that holds. -/
  | yes {test yes no : Expr} : Part yes (.conditional test yes no)
  /-- The branch of a test that fails. -/
  | no {test yes no : Expr} : Part no (.conditional test yes no)
  /-- An item of an array, spread or not. -/
  | item {items : List (Bool × Expr)} {spread : Bool} {item : Expr} : (spread, item) ∈ items → Part item (.array items)
  /-- An entry of an object, under a key or spread. -/
  | entry {entries : List (Option Text × Expr)} {key : Option Text} {entry : Expr} :
    (key, entry) ∈ entries → Part entry (.object entries)

/-- The children of a node are all of its sub-expressions. -/
theorem mem_children_iff {c e : Expr} : c ∈ e.children ↔ Part c e := by
  constructor
  · intro h
    cases e with
    | literal v => cases h
    | event => cases h
    | member target key =>
      obtain rfl | rfl : c = target ∨ c = key := by simpa [children] using h
      · exact .target
      · exact .key
    | call f args => exact .argument h
    | unary op operand =>
      obtain rfl : c = operand := by simpa [children] using h
      exact .operand
    | binary op left right =>
      obtain rfl | rfl : c = left ∨ c = right := by simpa [children] using h
      · exact .left
      · exact .right
    | logical op first second =>
      obtain rfl | rfl : c = first ∨ c = second := by simpa [children] using h
      · exact .first
      · exact .second
    | conditional test yes no =>
      obtain rfl | rfl | rfl : c = test ∨ c = yes ∨ c = no := by simpa [children] using h
      · exact .test
      · exact .yes
      · exact .no
    | array items =>
      obtain ⟨⟨spread, item⟩, hitem, rfl⟩ := List.mem_map.1 h
      exact .item hitem
    | object entries =>
      obtain ⟨⟨key, entry⟩, hentry, rfl⟩ := List.mem_map.1 h
      exact .entry hentry
  · intro h
    cases h with
    | argument h => exact h
    | item h => exact List.mem_map_of_mem h
    | entry h => exact List.mem_map_of_mem h
    | _ => simp [children]

/-- Numbers are the heights of trees: one for a tree without sub-expressions, otherwise one more than the greatest of
theirs. -/
def IsHeight (height : Expr → Nat) : Prop :=
  ∀ e, ((∀ c, ¬ Part c e) → height e = 1) ∧
    ((∃ c, Part c e) → (∃ c, Part c e ∧ height e = 1 + height c) ∧ ∀ c, Part c e → 1 + height c ≤ height e)

theorem height_le_heightAll {c : Expr} {es : List Expr} (h : c ∈ es) : c.height ≤ heightAll es := by
  induction es with
  | nil => cases h
  | cons e es ih =>
    rw [heightAll]
    cases h with
    | head => exact Nat.le_max_left ..
    | tail _ h => exact Nat.le_trans (ih h) (Nat.le_max_right ..)

/-- The greatest height among some trees is that of one of them. -/
theorem exists_heightAll {es : List Expr} (h : es ≠ []) : ∃ c ∈ es, heightAll es = c.height := by
  induction es with
  | nil => exact absurd rfl h
  | cons e es ih =>
    obtain hle | hle := Nat.le_total (heightAll es) e.height
    · exact ⟨e, List.mem_cons_self, by rw [heightAll, Nat.max_eq_left hle]⟩
    · cases es with
      | nil => exact ⟨e, List.mem_cons_self, by rw [heightAll, heightAll, Nat.max_zero]⟩
      | cons e' es =>
        obtain ⟨c, hc, hmax⟩ := ih (List.cons_ne_nil _ _)
        exact ⟨c, List.mem_cons_of_mem _ hc, by rw [heightAll, Nat.max_eq_right hle, hmax]⟩

theorem isHeight_height : IsHeight height := by
  intro e
  constructor
  · intro hleaf
    have hchildren : e.children = [] :=
      List.eq_nil_iff_forall_not_mem.2 fun c hc => hleaf c (mem_children_iff.1 hc)
    rw [height_eq, hchildren, heightAll]
  · rintro ⟨c, hc⟩
    refine ⟨?_, fun c hc => ?_⟩
    · obtain ⟨highest, hmem, hmax⟩ := exists_heightAll (List.ne_nil_of_mem (mem_children_iff.2 hc))
      exact ⟨highest, mem_children_iff.1 hmem, by rw [height_eq e, hmax]⟩
    · rw [height_eq e]
      exact Nat.add_le_add_left (height_le_heightAll (mem_children_iff.2 hc)) 1

/-! ### Evaluation by frames -/

/-- What comes of an evaluation that may run out of frames. -/
abbrev Framed (α : Type) : Type := ExceptT EvalError Option α

/-- An evaluation that does not run out of frames. -/
def framed {α : Type} (x : Except EvalError α) : Framed α := ExceptT.mk (some x)

/-- An evaluation that does run out of frames. -/
def outOfFrames {α : Type} : Framed α := ExceptT.mk none

/-- What an item stands for in an array. -/
def itemValues (spread : Bool) (v : Value) : Except EvalError (List Value) :=
  if spread then spreadItems v else .ok [v]

/-- Fields with those of an entry set on top of them. -/
def withEntry (fields : Fields) (key : Option Text) (v : Value) : Except EvalError Fields :=
  match key with
  | some key => .ok (fields.set (.name key) v)
  | none => do
    let more ← spreadFields v
    return fields.setAll more

/-- One frame: the value of a node, with a way to evaluate its sub-expressions. -/
def evalNode (now : Int) (event : Value) (sub : Expr → Framed Value) : Expr → Framed Value
  | .literal v => pure v
  | .event => pure event
  | .member target key => do
    let t ← sub target
    let k ← sub key
    framed (memberOf t k)
  | .call f args => do
    let vs ← args.mapM sub
    framed (applyBuiltin now f vs)
  | .unary op operand => do
    let v ← sub operand
    framed (applyUnary op v)
  | .binary op left right => do
    let a ← sub left
    let b ← sub right
    framed (applyBinary op a b)
  | .logical .and first second => do
    let a ← sub first
    if truthy a then sub second else pure a
  | .logical .or first second => do
    let a ← sub first
    if truthy a then pure a else sub second
  | .conditional test yes no => do
    let t ← sub test
    if truthy t then sub yes else sub no
  | .array items => do
    let vss ← items.mapM fun item => do
      let v ← sub item.2
      framed (itemValues item.1 v)
    pure (.array vss.flatten)
  | .object entries => do
    let fs ← entries.foldlM (fun fields entry => do
      let v ← sub entry.2
      framed (withEntry fields entry.1 v)) []
    pure (.object fs)

/-- The value of an expression, with only so many frames one inside the other. -/
def evalWithin (now : Int) (event : Value) : Nat → Expr → Framed Value
  | 0, _ => outOfFrames
  | frames + 1, e => evalNode now event (evalWithin now event frames) e

theorem framed_pure {α : Type} (a : α) : framed (pure a) = pure a := rfl

theorem framed_ok {α : Type} (a : α) : framed (.ok a) = pure a := rfl

theorem framed_bind {α β : Type} (x : Except EvalError α) (f : α → Except EvalError β) :
    framed (x >>= f) = framed x >>= fun a => framed (f a) := by
  cases x <;> rfl

theorem framed_ite {α : Type} (c : Prop) [Decidable c] (x y : Except EvalError α) :
    framed (if c then x else y) = if c then framed x else framed y := by
  split <;> rfl

/-! ### A frame is one step of evaluation -/

variable {now : Int} {event : Value}

theorem framed_evalAll (args : List Expr) :
    framed (evalAll now event args) = args.mapM fun e => framed (eval now event e) := by
  induction args with
  | nil => rfl
  | cons e es ih => simp only [evalAll, framed_bind, framed_pure, ih, List.mapM_cons]

theorem framed_evalItems (items : List (Bool × Expr)) :
    framed (evalItems now event items) = (do
      let vss ← items.mapM fun item => do
        let v ← framed (eval now event item.2)
        framed (itemValues item.1 v)
      pure vss.flatten) := by
  induction items with
  | nil => rfl
  | cons item items ih =>
    obtain ⟨spread, e⟩ := item
    -- `eval` goes on with the other items in either case, so the cases are taken before the two sides are compared
    cases spread <;>
      simp only [evalItems, Bool.false_eq_true, ite_true, ite_false, itemValues, framed_bind, framed_pure, framed_ok, ih,
        List.mapM_cons, bind_assoc, pure_bind, List.flatten_cons]

theorem framed_evalEntries (fields : Fields) (entries : List (Option Text × Expr)) :
    framed (evalEntries now event fields entries) = entries.foldlM (fun fields entry => do
      let v ← framed (eval now event entry.2)
      framed (withEntry fields entry.1 v)) fields := by
  induction entries generalizing fields with
  | nil => rfl
  | cons entry entries ih =>
    obtain ⟨key, e⟩ := entry
    cases key with
    | some key => simp only [evalEntries, framed_bind, ih, List.foldlM_cons, withEntry, framed_ok, bind_assoc, pure_bind]
    | none => simp only [evalEntries, framed_bind, framed_pure, ih, List.foldlM_cons, withEntry, bind_assoc, pure_bind]

/-- With all sub-expressions evaluated in full, a frame evaluates the node in full. -/
theorem evalNode_eval (e : Expr) :
    evalNode now event (fun c => framed (eval now event c)) e = framed (eval now event e) := by
  cases e with
  | literal v => rfl
  | event => rfl
  | member target key => simp only [evalNode, eval, framed_bind]
  | call f args => simp only [evalNode, eval, framed_bind, framed_evalAll]
  | unary op operand => simp only [evalNode, eval, framed_bind]
  | binary op left right => simp only [evalNode, eval, framed_bind]
  | logical op first second => cases op <;> simp only [evalNode, eval, framed_bind, framed_ite, framed_pure]
  | conditional test yes no => simp only [evalNode, eval, framed_bind, framed_ite]
  | array items =>
    simp only [evalNode, eval, framed_bind, framed_pure, framed_evalItems, bind_assoc, pure_bind]
  | object entries => simp only [evalNode, eval, framed_bind, framed_pure, framed_evalEntries]

/-! ### What a frame evaluates -/

section Congruence

variable {α β : Type}

theorem mapM_congr {xs : List α} {f g : α → Framed β} (h : ∀ x ∈ xs, f x = g x) : xs.mapM f = xs.mapM g := by
  induction xs with
  | nil => rfl
  | cons x xs ih =>
    rw [List.mapM_cons, List.mapM_cons, h x List.mem_cons_self, ih fun y hy => h y (List.mem_cons_of_mem _ hy)]

theorem foldlM_congr {xs : List α} {f g : β → α → Framed β} (h : ∀ x ∈ xs, ∀ b, f b x = g b x) (b : β) :
    xs.foldlM f b = xs.foldlM g b := by
  induction xs generalizing b with
  | nil => rfl
  | cons x xs ih =>
    have htail : xs.foldlM f = xs.foldlM g := funext fun b => ih (fun y hy => h y (List.mem_cons_of_mem _ hy)) b
    rw [List.foldlM_cons, List.foldlM_cons, h x List.mem_cons_self, htail]

end Congruence

/-- **A frame evaluates nothing but sub-expressions of its node.** -/
theorem evalNode_congr {sub sub' : Expr → Framed Value} {e : Expr} (h : ∀ c, Part c e → sub c = sub' c) :
    evalNode now event sub e = evalNode now event sub' e := by
  cases e with
  | literal v => rfl
  | event => rfl
  | member target key => simp only [evalNode, h _ .target, h _ .key]
  | call f args =>
    rw [evalNode, evalNode, mapM_congr fun arg harg => h arg (.argument harg)]
  | unary op operand => simp only [evalNode, h _ .operand]
  | binary op left right => simp only [evalNode, h _ .left, h _ .right]
  | logical op first second => cases op <;> simp only [evalNode, h _ .first, h _ .second]
  | conditional test yes no => simp only [evalNode, h _ .test, h _ .yes, h _ .no]
  | array items =>
    rw [evalNode, evalNode, mapM_congr fun item hitem => by rw [h item.2 (.item hitem)]]
  | object entries =>
    rw [evalNode, evalNode, foldlM_congr fun entry hentry fields => by rw [h entry.2 (.entry hentry)]]

/-- **As many frames as a tree is high are enough to evaluate it.** -/
theorem evalWithin_eq {frames : Nat} {e : Expr} (h : e.height ≤ frames) :
    evalWithin now event frames e = framed (eval now event e) := by
  induction frames generalizing e with
  | zero =>
    rw [height_eq] at h
    omega
  | succ frames ih =>
    have hparts : ∀ c, Part c e → evalWithin now event frames c = framed (eval now event c) := by
      intro c hc
      have hheight := height_le_heightAll (mem_children_iff.2 hc)
      rw [height_eq] at h
      exact ih (by omega)
    rw [evalWithin, evalNode_congr hparts, evalNode_eval]

end Expr

/-! ### Expressions that compile -/

theorem height_le_of_compile {t : Text} {x : Expression} (h : compile t = .ok x) : x.tree.height ≤ maxHeight := by
  unfold compile parse at h
  cases hlex : lex t with
  | error e => simp [hlex, Except.map] at h
  | ok tokens =>
    cases hparse : parseTokens tokens with
    | error e => simp [hlex, hparse, Except.map] at h
    | ok e =>
      simp only [hlex, hparse] at h
      by_cases hhigh : maxHeight < e.sweptHeight
      · rw [if_pos hhigh] at h
        cases h
      · rw [if_neg hhigh] at h
        cases h
        rw [← Expr.sweptHeight_eq_height]
        exact Nat.le_of_not_lt hhigh

/-- **The sweep of a tree comes to its end and finds the height of the tree**, which is one for a tree without
sub-expressions and otherwise one more than the greatest height among them; the children that the sweep goes down to are
all of the sub-expressions. **So no expression that compiles is evaluated with more frames one inside the other than the
limit says**: with that many frames the evaluation is the same as without any bound. -/
theorem sweptHeight_and_nesting :
    (∀ e : Expr, Expr.Sweeps e.size 0 [(e, 1)] e.sweptHeight) ∧ Expr.IsHeight Expr.sweptHeight ∧
      (∀ c e : Expr, c ∈ e.children ↔ Expr.Part c e) ∧
      ∀ t x, compile t = .ok x → ∀ now event,
        Expr.evalWithin now event maxHeight x.tree = Expr.framed (x.tree.eval now event) := by
  have hswept : Expr.sweptHeight = Expr.height := funext Expr.sweptHeight_eq_height
  rw [hswept]
  exact ⟨Expr.sweeps_height, Expr.isHeight_height, fun _ _ => Expr.mem_children_iff,
    fun t x h now event => Expr.evalWithin_eq (height_le_of_compile h)⟩

/-- Two branches, spread values and a call, four nodes one below the other. -/
theorem nesting_of_branches :
    ∃ x, compile "event.go ? [...event.all, len(event)] : -1" = .ok x ∧ x.tree.sweptHeight = 4 ∧
      ∀ now event, Expr.evalWithin now event maxHeight x.tree = Expr.framed (x.tree.eval now event) := by
  have hcompile : compile "event.go ? [...event.all, len(event)] : -1" =
      .ok ⟨"event.go ? [...event.all, len(event)] : -1", .conditional (.member .event (.literal (.text "go")))
        (.array [(true, .member .event (.literal (.text "all"))), (false, .call .len [.event])])
        (.unary .neg (.literal (.number (.int 1))))⟩ := by cbv
  exact ⟨_, hcompile, rfl, sweptHeight_and_nesting.2.2.2 _ _ hcompile⟩

/-- With one frame less than it is high, a tree may not be evaluated. -/
example : Expr.evalWithin 0 .null 1 (.unary .not .event) = Expr.outOfFrames := rfl

end Expression

end EventPipeline
