import EventPipeline.Failure.Basic
import Mathlib.Order.Defs.Unbundled
import Mathlib.Tactic.SplitIfs

/-!
# Steps that may fail

Steps on files, on a buffer, on a sink and on an engine all have one shape: they end with a result
or with a failure, and leave a state behind in either case. This module says what comes of the
small steps and of two steps in a row (`perform_bind`), and when a step only ever goes from a state
to a related one (`Leads`). For a relation that is reflexive and transitive, `Leads` is kept by
everything that steps are put together with, so that it has to be shown of the smallest ones only.
-/

namespace EventPipeline

/-- Of two steps that gave a result, the first gave one and the second went on from it. -/
theorem ok_of_bind_ok {ε α β : Type} {a : Except ε α} {k : α → Except ε β} {y : β} (h : (a >>= k) = .ok y) :
    ∃ x, a = .ok x ∧ k x = .ok y := by
  cases a with
  | error e => cases h
  | ok x => exact ⟨x, rfl, h⟩

/-- Of two steps that fail, the first one fails, or it gives a result and the second one fails on it. -/
theorem error_of_bind_error {ε α β : Type} {a : Except ε α} {k : α → Except ε β} {e : ε}
    (h : (a >>= k) = .error e) : a = .error e ∨ ∃ x, a = .ok x ∧ k x = .error e := by
  cases a with
  | error e' =>
    cases h
    exact .inl rfl
  | ok x => exact .inr ⟨x, rfl, h⟩

/-- A step on a state that may fail. -/
abbrev Fallible (S α : Type) := ExceptT Failure (StateM S) α

variable {S α β : Type}

/-- What comes of a step on a state: the result or the failure, and the state left behind. -/
def perform (a : Fallible S α) (s : S) : Except Failure α × S := a.run.run s

/-! ### What comes of small steps -/

@[simp] theorem perform_pure (x : α) (s : S) : perform (pure x) s = (.ok x, s) := rfl

@[simp] theorem perform_throw (f : Failure) (s : S) : perform (throw f : Fallible S α) s = (.error f, s) := rfl

@[simp] theorem perform_get (s : S) : perform (get : Fallible S S) s = (.ok s, s) := rfl

@[simp] theorem perform_set (t s : S) : perform (set t : Fallible S PUnit) s = (.ok ⟨⟩, t) := rfl

@[simp] theorem perform_modify (g : S → S) (s : S) : perform (modify g : Fallible S PUnit) s = (.ok ⟨⟩, g s) := rfl

/-- A step that gives its failure instead of failing. -/
@[simp] theorem perform_lift (a : Fallible S α) (s : S) :
    perform (ExceptT.lift a.run) s = (.ok (perform a s).1, (perform a s).2) := rfl

/-- The second of two steps goes on where the first one ended, unless that failed. -/
theorem perform_bind (a : Fallible S α) (k : α → Fallible S β) (s : S) :
    perform (a >>= k) s =
      match perform a s with
      | (.ok x, t) => perform (k x) t
      | (.error f, t) => (.error f, t) := by
  unfold perform
  rw [ExceptT.run_bind, StateT.run_bind]
  rcases StateT.run (ExceptT.run a) s with ⟨_ | _, t⟩ <;> rfl

theorem perform_bind_ok {a : Fallible S α} {k : α → Fallible S β} {s t : S} {x : α}
    (h : perform a s = (.ok x, t)) : perform (a >>= k) s = perform (k x) t := by
  rw [perform_bind, h]

/-- Two steps in a row succeed only if both do. -/
theorem perform_bind_eq_ok {a : Fallible S α} {k : α → Fallible S β} {s u : S} {y : β}
    (h : perform (a >>= k) s = (.ok y, u)) : ∃ x t, perform a s = (.ok x, t) ∧ perform (k x) t = (.ok y, u) := by
  rw [perform_bind] at h
  rcases hp : perform a s with ⟨_ | x, t⟩
  · rw [hp] at h
    cases h
  · rw [hp] at h
    exact ⟨x, t, rfl, h⟩

/-! ### Steps that go from a state to a related one -/

/-- The step goes from a state to a related one, whatever comes of it. -/
def Leads (R : S → S → Prop) (a : Fallible S α) : Prop := ∀ s, R s (perform a s).2

section Leads

variable {R : S → S → Prop}

theorem Leads.mono {Q : S → S → Prop} (h : ∀ s t, R s t → Q s t) {a : Fallible S α} (ha : Leads R a) :
    Leads Q a := fun s => h _ _ (ha s)

theorem Leads.pure [Std.Refl R] (x : α) : Leads R (pure x : Fallible S α) := fun s => refl_of R s

theorem Leads.throw [Std.Refl R] (f : Failure) : Leads R (throw f : Fallible S α) := fun s => refl_of R s

theorem Leads.get [Std.Refl R] : Leads R (get : Fallible S S) := fun s => refl_of R s

theorem Leads.modify {g : S → S} (h : ∀ s, R s (g s)) : Leads R (modify g : Fallible S PUnit) := h

theorem Leads.lift {a : Fallible S α} (h : Leads R a) : Leads R (ExceptT.lift a.run : Fallible S _) := h

/-- Two related steps in a row. -/
theorem Leads.bind [IsTrans S R] {a : Fallible S α} {k : α → Fallible S β} (ha : Leads R a)
    (hk : ∀ x, Leads R (k x)) : Leads R (a >>= k) := by
  intro s
  have h := ha s
  rw [perform_bind]
  rcases hp : perform a s with ⟨_ | x, t⟩
  · rw [hp] at h
    exact h
  · rw [hp] at h
    exact trans_of R h (hk x t)

/-- A step that looks at the state first. -/
theorem Leads.get_bind {k : S → Fallible S β} (h : ∀ s, R s (perform (k s) s).2) :
    Leads R (MonadState.get >>= k) := by
  intro s
  rw [perform_bind_ok (perform_get s)]
  exact h s

theorem Leads.forM [IsPreorder S R] {f : α → Fallible S PUnit} (h : ∀ x, Leads R (f x)) (xs : List α) :
    Leads R (xs.forM f) := by
  induction xs with
  | nil => exact Leads.pure _
  | cons x xs ih => exact Leads.bind (h x) fun _ => ih

end Leads

end EventPipeline
