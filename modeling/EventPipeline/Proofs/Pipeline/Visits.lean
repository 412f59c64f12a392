import EventPipeline.Pipeline.Chain
import EventPipeline.Proofs.Fallible

/-!
# Visits to aggregate stages

What the aggregate stages do while a chain threads an event, made visible. A *visit* is one value
taken in by one aggregate stage: the values held before it, and what came of it. `Chain.watch` runs
a chain like `Chain.run` and keeps the visits; leaving them out gives `Chain.run` again
(`watch_erase`).

The main statement is `visits_balance`: whatever fails on the way, the windows that were reduced
during a run, followed by the values that are held after it, are the values held before it followed
by the values taken in. Nothing is lost, nothing is doubled, and the order is kept.
-/

namespace EventPipeline

/-! ### Taking one value in -/

namespace Accumulator

/-- Asking whether a window closes uses up the clock only. -/
theorem buffer_shouldClose (field : Text) (w : Window) :
    Leads (fun a b : Accumulator => b.buffer = a.buffer) (shouldClose field w) := by
  apply Leads.get_bind
  intro a
  split_ifs
  · rfl
  · cases w.span with
    | none => rfl
    | some span =>
      cases oldestTimestamp? field a.buffer with
      | none => rfl
      | some stamp =>
        dsimp only
        cases stamp.toFloat with
        | error e => rfl
        | ok oldest =>
          dsimp only
          rw [perform_bind_ok (perform_set _ _)]
          cases spanReached span oldest a.clock.read.1 <;> rfl

/-- **What comes of a value taken in**: its reduction with all values held, which empties the
buffer; nothing yet, and it is held; or a failure, and it is held all the same. -/
theorem accumulate_cases (field : Text) (w : Window) (reduce : List Value → Except Failure Value) (v : Value)
    (a : Accumulator) :
    (∃ r a', perform (accumulate field w reduce v) a = (.ok (some r), a') ∧
      reduce (a.buffer.push v) = .ok r ∧ a'.buffer = []) ∨
    (∃ a', perform (accumulate field w reduce v) a = (.ok none, a') ∧ a'.buffer = a.buffer.push v) ∨
    (∃ f a', perform (accumulate field w reduce v) a = (.error f, a') ∧ a'.buffer = a.buffer.push v) := by
  have hb := buffer_shouldClose field w { a with buffer := a.buffer.push v }
  rw [accumulate, perform_bind_ok (perform_modify _ _), perform_bind]
  rcases hc : perform (shouldClose field w) { a with buffer := a.buffer.push v } with ⟨f | close, t⟩
  all_goals rw [hc] at hb
  all_goals simp only at hb
  · exact .inr (.inr ⟨f, t, rfl, hb⟩)
  · cases close with
    | false => exact .inr (.inl ⟨t, rfl, hb⟩)
    | true =>
      simp only [if_true, reduceAll, bind_assoc, perform_bind_ok (perform_get t)]
      rcases hr : reduce t.buffer with f | r
      · exact .inr (.inr ⟨f, t, rfl, hb⟩)
      · exact .inl ⟨r, _, rfl, hb ▸ hr, rfl⟩

/-- What comes of a flush: nothing without held values; the buffer is emptied only by a reduction. -/
theorem perform_flush (reduce : List Value → Except Failure Value) (a : Accumulator) :
    perform (flush reduce) a =
      if a.buffer = [] then (.ok none, a)
      else
        match reduce a.buffer with
        | .ok r => (.ok (some r), { a with buffer := [] })
        | .error f => (.error f, a) := by
  rw [flush, perform_bind_ok (perform_get a)]
  by_cases hb : a.buffer = []
  · simp [hb]
  · have h : a.buffer.isEmpty = false := by simpa using hb
    rw [if_neg hb, h]
    simp only [Bool.false_eq_true, if_false, reduceAll, bind_assoc, perform_bind_ok (perform_get a)]
    cases reduce a.buffer <;> rfl

end Accumulator

/-! ### Runs in general -/

namespace Chain

variable {S T : Type} {m : Type → Type} [Monad m] (intake : Intake m)

/-- A run without a value is over. -/
theorem runWith_of_absent {v : Option Value} (hv : v = none ∨ v = some .null) (i : Nat) (stages : List Stage) :
    runWith intake i v stages = pure ⟨v, false, []⟩ := by
  cases stages with
  | nil => rfl
  | cons s rest => rcases hv with rfl | rfl <;> rfl

theorem runWith_filter {x : Value} (hx : x ≠ .null) (i : Nat) (accepts : Value → Except Failure Bool)
    (source : Option Text) (rest : List Stage) :
    runWith intake i (some x) (.filter accepts source :: rest) =
      match accepts x with
      | .ok true => runWith intake (i + 1) (some x) rest
      | .ok false => pure ⟨none, true, []⟩
      | .error f => do
        return (← runWith intake (i + 1) (some x) rest).noting ((Stage.filter accepts source).failure i f) := by
  cases x <;> first | rfl | exact absurd rfl hx

theorem runWith_transform {x : Value} (hx : x ≠ .null) (i : Nat) (map : Value → Except Failure Value)
    (source : Option Text) (rest : List Stage) :
    runWith intake i (some x) (.transform map source :: rest) =
      match map x with
      | .ok y => runWith intake (i + 1) (some y) rest
      | .error f => do
        return (← runWith intake (i + 1) (some x) rest).noting ((Stage.transform map source).failure i f) := by
  cases x <;> first | rfl | exact absurd rfl hx

theorem runWith_aggregate {x : Value} (hx : x ≠ .null) (i : Nat) (window : Window)
    (reduce : List Value → Except Failure Value) (source : Option Text) (rest : List Stage) :
    runWith intake i (some x) (.aggregate window reduce source :: rest) = do
      match ← intake i window reduce x with
      | .ok y => runWith intake (i + 1) y rest
      | .error f =>
        return (← runWith intake (i + 1) (some x) rest).noting
          ((Stage.aggregate window reduce source).failure i f) := by
  cases x <;> first | rfl | exact absurd rfl hx

/-- A run goes from a state to a related one if every value taken in does. -/
theorem leads_runWith {R : S → S → Prop} [IsPreorder S R] {intake : Intake (StateM S)}
    (h : ∀ i w r x s, R s ((intake i w r x).run s).2) (stages : List Stage) (i : Nat) (v : Option Value) (s : S) :
    R s ((runWith intake i v stages).run s).2 := by
  induction stages generalizing i v s with
  | nil => exact refl_of R s
  | cons stage rest ih =>
    rcases v with _ | x
    · exact refl_of R s
    by_cases hx : x = .null
    · subst hx
      exact refl_of R s
    cases stage with
    | filter accepts source =>
      rw [runWith_filter intake hx]
      rcases accepts x with f | _ | _
      · exact ih _ _ s
      · exact refl_of R s
      · exact ih _ _ s
    | transform map source =>
      rw [runWith_transform intake hx]
      rcases map x with f | y
      · exact ih _ _ s
      · exact ih _ _ s
    | aggregate window reduce source =>
      rw [runWith_aggregate intake hx, StateT.run_bind]
      have hs := h i window reduce x s
      rcases hi : (intake i window reduce x).run s with ⟨f | y, t⟩
      all_goals rw [hi] at hs
      · exact trans_of R hs (ih _ _ t)
      · exact trans_of R hs (ih _ _ t)

/-- Two runs agree on what one of them keeps of the other's state if this holds of every value taken
in. -/
theorem runWith_map {full : Intake (StateM S)} {bare : Intake (StateM T)} (e : S → T)
    (h : ∀ i w r x s, (bare i w r x).run (e s) = ((full i w r x).run s).map id e) (stages : List Stage) (i : Nat)
    (v : Option Value) (s : S) :
    (runWith bare i v stages).run (e s) = ((runWith full i v stages).run s).map id e := by
  induction stages generalizing i v s with
  | nil => rfl
  | cons stage rest ih =>
    rcases v with _ | x
    · rfl
    by_cases hx : x = .null
    · subst hx
      rfl
    cases stage with
    | filter accepts source =>
      rw [runWith_filter _ hx, runWith_filter _ hx]
      rcases accepts x with f | _ | _
      · simp only [StateT.run_bind, ih]
        rfl
      · rfl
      · exact ih _ _ s
    | transform map source =>
      rw [runWith_transform _ hx, runWith_transform _ hx]
      rcases map x with f | y
      · simp only [StateT.run_bind, ih]
        rfl
      · exact ih _ _ s
    | aggregate window reduce source =>
      rw [runWith_aggregate _ hx, runWith_aggregate _ hx, StateT.run_bind, StateT.run_bind, h]
      rcases (full i window reduce x).run s with ⟨f | y, t⟩
      · exact congrArg (Prod.map (Outcome.noting _) id) (ih (i + 1) (some x) t)
      · exact ih _ _ t

end Chain

/-! ### Visits -/

/-- A value taken in by an aggregate stage. -/
structure Visit where
  /-- The index of the stage. -/
  index : Nat
  /-- The value. -/
  value : Value
  /-- The values that were held before. -/
  held : Buffer
  /-- The reduction, if the window closed, or how the stage failed. -/
  result : Except Failure (Option Value)

/-- The window that the stage reduced, if it did. -/
def Visit.window? (v : Visit) : Option (List Value) :=
  match v.result with
  | .ok (some _) => some (v.held.push v.value)
  | _ => none

namespace Chain

/-- Aggregate stages take their values into the buffer, and their visits are kept. -/
def watchingIntake (field : Text) : Intake (StateM (Accumulator × List Visit)) :=
  fun index window reduce x (a, visits) =>
    let (r, b) := perform (Accumulator.accumulate field window reduce x) a
    (r, (b, visits ++ [⟨index, x, a.buffer, r⟩]))

/-- What comes of a value taken in, and the visit behind the others. -/
theorem run_watchingIntake (field : Text) (i : Nat) (w : Window) (reduce : List Value → Except Failure Value)
    (x : Value) (a : Accumulator) (log : List Visit) :
    (watchingIntake field i w reduce x).run (a, log) =
      ((perform (Accumulator.accumulate field w reduce x) a).1,
        (perform (Accumulator.accumulate field w reduce x) a).2,
        log ++ [⟨i, x, a.buffer, (perform (Accumulator.accumulate field w reduce x) a).1⟩]) := rfl

/-- Runs an event through a chain and keeps the visits to aggregate stages. -/
def watch (field : Text) (stages : List Stage) (event : Value) : StateM (Accumulator × List Visit) Outcome :=
  runWith (watchingIntake field) 0 (some event) stages

/-- The visits to aggregate stages when an event runs through a chain. -/
def visits (field : Text) (stages : List Stage) (event : Value) (a : Accumulator) : List Visit :=
  ((watch field stages event).run (a, [])).2.2

/-- **Keeping the visits changes nothing else.** -/
theorem watch_erase (field : Text) (stages : List Stage) (event : Value) (a : Accumulator) (log : List Visit) :
    (run field stages event).run a = ((watch field stages event).run (a, log)).map id Prod.fst := by
  have h : ∀ i w r x s, (bufferIntake field i w r x).run (Prod.fst s) =
      ((watchingIntake field i w r x).run s).map id Prod.fst := fun _ _ _ _ _ => rfl
  exact runWith_map Prod.fst h stages 0 (some event) (a, log)

/-- The windows reduced during visits, in order. -/
def windows (vs : List Visit) : List (List Value) := vs.filterMap Visit.window?

/-- The windows and the values held at the end are the values held at the start and those taken in. -/
def Balanced (s t : Accumulator × List Visit) : Prop :=
  ∃ vs, t.2 = s.2 ++ vs ∧ (windows vs).flatten ++ t.1.buffer = s.1.buffer ++ vs.map Visit.value

instance : IsPreorder (Accumulator × List Visit) Balanced where
  refl s := ⟨[], by simp [windows]⟩
  trans s t u := by
    rintro ⟨vs, hv, hvs⟩ ⟨ws, hw, hws⟩
    refine ⟨vs ++ ws, by rw [hw, hv, List.append_assoc], ?_⟩
    simp only [windows, List.filterMap_append, List.flatten_append, List.map_append, List.append_assoc] at hvs hws ⊢
    rw [hws, ← List.append_assoc, hvs, List.append_assoc]

theorem balanced_intake (field : Text) (i : Nat) (w : Window) (reduce : List Value → Except Failure Value) (x : Value)
    (s : Accumulator × List Visit) : Balanced s ((watchingIntake field i w reduce x).run s).2 := by
  obtain ⟨a, log⟩ := s
  refine ⟨[⟨i, x, a.buffer, (perform (Accumulator.accumulate field w reduce x) a).1⟩], rfl, ?_⟩
  show (windows _).flatten ++ (perform (Accumulator.accumulate field w reduce x) a).2.buffer = _
  rcases Accumulator.accumulate_cases field w reduce x a with ⟨r, a', h, -, hb⟩ | ⟨a', h, hb⟩ | ⟨f, a', h, hb⟩ <;>
    simp [h, hb, windows, Visit.window?, Buffer.push]

/-- **A run of a chain loses and doubles nothing**: the windows it reduces and the values it leaves
held are, in order, the values held before and the values taken in. -/
theorem visits_balance (field : Text) (stages : List Stage) (event : Value) (a : Accumulator) :
    (windows (visits field stages event a)).flatten ++ ((run field stages event).run a).2.buffer =
      a.buffer ++ (visits field stages event a).map Visit.value := by
  obtain ⟨vs, hv, h⟩ := leads_runWith (balanced_intake field) stages 0 (some event) (a, [])
  rw [watch_erase field stages event a []]
  have hvs : visits field stages event a = vs := hv
  rw [hvs]
  exact h

end Chain

end EventPipeline
