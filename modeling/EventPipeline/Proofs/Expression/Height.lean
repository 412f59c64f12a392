import EventPipeline.Expression.Tree
import Mathlib.Tactic.Common

/-!
# The height of a tree, swept

The sweep takes the nodes of a tree from a stack and keeps the deepest level it has seen. A tree on the
stack at a level reaches that level and as many more as its children are high, so what the sweep finds is
the greatest of these reaches. Each round takes one node, so that there are as many rounds as the tree has nodes
(`sweeps_height`).
-/

namespace EventPipeline

namespace Expression

namespace Expr

/-! ### Trees by their children -/

theorem heightItems_eq (items : List (Bool × Expr)) : heightItems items = heightAll (items.map (·.2)) := by
  induction items with
  | nil => rfl
  | cons item items ih =>
    obtain ⟨spread, e⟩ := item
    rw [heightItems, List.map_cons, heightAll, ih]

theorem heightEntries_eq (entries : List (Option Text × Expr)) :
    heightEntries entries = heightAll (entries.map (·.2)) := by
  induction entries with
  | nil => rfl
  | cons entry entries ih =>
    obtain ⟨key, e⟩ := entry
    rw [heightEntries, List.map_cons, heightAll, ih]

theorem sizeItems_eq (items : List (Bool × Expr)) : sizeItems items = sizeAll (items.map (·.2)) := by
  induction items with
  | nil => rfl
  | cons item items ih =>
    obtain ⟨spread, e⟩ := item
    rw [sizeItems, List.map_cons, sizeAll, ih]

theorem sizeEntries_eq (entries : List (Option Text × Expr)) :
    sizeEntries entries = sizeAll (entries.map (·.2)) := by
  induction entries with
  | nil => rfl
  | cons entry entries ih =>
    obtain ⟨key, e⟩ := entry
    rw [sizeEntries, List.map_cons, sizeAll, ih]

/-- A tree is one higher than the highest of its children. -/
theorem height_eq (e : Expr) : e.height = 1 + heightAll e.children := by
  cases e <;> simp [height, children, heightAll, heightItems_eq, heightEntries_eq]

/-- A tree has one node more than its children together. -/
theorem size_eq (e : Expr) : e.size = 1 + sizeAll e.children := by
  cases e <;> simp [size, children, sizeAll, sizeItems_eq, sizeEntries_eq, Nat.add_assoc]

theorem sizeAll_append (es es' : List Expr) : sizeAll (es ++ es') = sizeAll es + sizeAll es' := by
  induction es with
  | nil => simp [sizeAll]
  | cons e es ih => rw [List.cons_append, sizeAll, sizeAll, ih, Nat.add_assoc]

theorem sizeAll_reverse (es : List Expr) : sizeAll es.reverse = sizeAll es := by
  induction es with
  | nil => rfl
  | cons e es ih => rw [List.reverse_cons, sizeAll_append, ih, sizeAll, sizeAll, sizeAll, Nat.add_zero, Nat.add_comm]

/-! ### The sweep -/

/-- The deepest level that the trees on a stack reach, zero if there are none. -/
def reach : List (Expr × Nat) → Nat
  | [] => 0
  | (e, level) :: stack => max (level + heightAll e.children) (reach stack)

theorem reach_append (s s' : List (Expr × Nat)) : reach (s ++ s') = max (reach s) (reach s') := by
  induction s with
  | nil => simp [reach]
  | cons p s ih =>
    obtain ⟨e, level⟩ := p
    rw [List.cons_append, reach, reach, ih, Nat.max_assoc]

theorem reach_reverse (s : List (Expr × Nat)) : reach s.reverse = reach s := by
  induction s with
  | nil => rfl
  | cons p s ih =>
    obtain ⟨e, level⟩ := p
    rw [List.reverse_cons, reach_append, ih, reach, reach, reach, Nat.max_zero, Nat.max_comm]

/-- Trees one level further down reach as deep as they are high, counted from above. -/
theorem reach_level (es : List Expr) (level : Nat) :
    max level (reach (es.map fun e => (e, level + 1))) = level + heightAll es := by
  induction es with
  | nil => simp [reach, heightAll]
  | cons e es ih =>
    rw [List.map_cons, reach, heightAll, height_eq e]
    omega

/-- The sweep comes to its end: after so many rounds, each of which takes a tree from the stack and pushes its children
one level deeper, the stack is empty, and this is the deepest level. -/
inductive Sweeps : Nat → Nat → List (Expr × Nat) → Nat → Prop where
  /-- The stack is empty. -/
  | done (deepest : Nat) : Sweeps 0 deepest [] deepest
  /-- A tree is taken from the stack. -/
  | take {rounds deepest level result : Nat} {e : Expr} {stack : List (Expr × Nat)} :
    Sweeps rounds (max deepest level) ((e.children.map fun child => (child, level + 1)).reverse ++ stack) result →
    Sweeps (rounds + 1) deepest ((e, level) :: stack) result

/-- A sweep that comes to its end is not cut short by a number of steps that is not smaller. -/
theorem Sweeps.sweep_eq {rounds deepest result : Nat} {stack : List (Expr × Nat)}
    (h : Sweeps rounds deepest stack result) {steps : Nat} (hsteps : rounds ≤ steps) :
    sweep steps deepest stack = result := by
  induction h generalizing steps with
  | done deepest => cases steps <;> rfl
  | take _ ih =>
    obtain ⟨steps, rfl⟩ : ∃ k, steps = k + 1 := ⟨steps - 1, by omega⟩
    rw [sweep]
    exact ih (Nat.le_of_succ_le_succ hsteps)

/-- **Every sweep comes to its end** after as many rounds as there are nodes in the trees on the stack. The induction is
on this number, since the stack itself may grow. -/
theorem sweeps_of_size {rounds : Nat} {stack : List (Expr × Nat)} (hsize : sizeAll (stack.map (·.1)) = rounds)
    (deepest : Nat) : Sweeps rounds deepest stack (max deepest (reach stack)) := by
  induction rounds generalizing stack deepest with
  | zero =>
    cases stack with
    | nil =>
      rw [reach, Nat.max_zero]
      exact .done deepest
    | cons p stack =>
      rw [List.map_cons, sizeAll, size_eq] at hsize
      omega
  | succ rounds ih =>
    cases stack with
    | nil => cases hsize
    | cons p stack =>
      obtain ⟨e, level⟩ := p
      simp only [List.map_cons, sizeAll, size_eq e] at hsize
      have hrest : sizeAll (((e.children.map fun child => (child, level + 1)).reverse ++ stack).map (·.1)) =
          rounds := by
        rw [List.map_append, List.map_reverse, List.map_map, sizeAll_append, sizeAll_reverse]
        simp only [Function.comp_def, List.map_id']
        omega
      have hlevel := reach_level e.children level
      have hdeepest : max (max deepest level) (max (reach (e.children.map fun child => (child, level + 1))) (reach stack)) =
          max deepest (reach ((e, level) :: stack)) := by
        rw [reach]
        omega
      have hsweeps := ih hrest (max deepest level)
      rw [reach_append, reach_reverse, hdeepest] at hsweeps
      exact .take hsweeps

/-- The sweep that starts with one tree takes each of its nodes once, and finds its height. -/
theorem sweeps_height (e : Expr) : Sweeps e.size 0 [(e, 1)] e.height := by
  have hsize : sizeAll ([(e, 1)].map (·.1)) = e.size := by simp [sizeAll]
  have hreach : max 0 (reach [(e, 1)]) = e.height := by simp [reach, height_eq e]
  rw [← hreach]
  exact sweeps_of_size hsize 0

/-- **The sweep finds the height of a tree.** -/
theorem sweptHeight_eq_height (e : Expr) : e.sweptHeight = e.height := (sweeps_height e).sweep_eq (Nat.le_refl _)

end Expr

end Expression

end EventPipeline
