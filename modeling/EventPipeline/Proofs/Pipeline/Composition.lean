import EventPipeline.Proofs.Pipeline.Plain
import Mathlib.Data.List.Forall2
import Mathlib.Data.List.Range

/-!
# Chains one behind the other

A chain that is cut in two runs like its two parts one after the other: the second part takes over the
value that the first one delivers and the values that it left held, and if nothing is delivered the
second part does not run (`runWith_append`). Where a part begins shows in the failures of its stages and in
nothing else (`renumbered_runWith`).

Two consequences. A stage that fails is passed over: without a filter or a transform that fails on its value
the run comes to the same, the failure apart (`run_without`). And the failures of a run are those of the
stages that fail on what comes to them, each once and in the order of the stages (`errors_run`).
-/

namespace EventPipeline

/-! ### Failing stages -/

/-- The failure, if there is one. -/
def failure? {α : Type} : Except Failure α → Option Failure
  | .ok _ => none
  | .error f => some f

theorem failure?_eq_some_iff {α : Type} {r : Except Failure α} {f : Failure} : failure? r = some f ↔ r = .error f := by
  cases r <;> simp [failure?]

/-- How the stage fails on a value while some values are held, if it does. -/
def Stage.failure? (field : Text) (a : Accumulator) (x : Value) : Stage → Option Failure
  | .filter accepts _ => EventPipeline.failure? (accepts x)
  | .transform map _ => EventPipeline.failure? (map x)
  | .aggregate w reduce _ => EventPipeline.failure? (perform (Accumulator.accumulate field w reduce x) a).1

/-- The index of the stage that a failure tells of. -/
def Failure.stageIndex? : Failure → Option Int
  | .structured (.processor index _) .. => index
  | _ => none

theorem Stage.stageIndex?_failure (i : ℕ) (s : Stage) (f : Failure) : (s.failure i f).stageIndex? = some (i : Int) := rfl

/-- Two failures are those of one stage and for one reason, at an index and at a later one. -/
def Renumbered (k : ℕ) (e e' : Failure) : Prop := ∃ i s f, e = Stage.failure i s f ∧ e' = Stage.failure (i + k) s f

/-- A failure can be renumbered in one way only. -/
theorem Renumbered.unique {k : ℕ} {e e₁ e₂ : Failure} (h₁ : Renumbered k e e₁) (h₂ : Renumbered k e e₂) : e₁ = e₂ := by
  obtain ⟨i, s, f, rfl, rfl⟩ := h₁
  obtain ⟨j, t, g, he, rfl⟩ := h₂
  simp only [Stage.failure, Failure.asCause, Failure.structured.injEq, Concern.processor.injEq, Option.some.injEq,
    Int.natCast_inj, Cause.mk.injEq, List.cons.injEq, Prod.mk.injEq, true_and, and_true] at he ⊢
  obtain ⟨⟨rfl, hkind⟩, -, ⟨-, htext, hsource, hname⟩, hclass, hmessage⟩ := he
  exact ⟨⟨rfl, hkind⟩, by rw [hkind, hmessage], ⟨rfl, htext, hsource, hname⟩, hclass, hmessage⟩

/-! ### Two runs in a row -/

namespace Outcome

/-- The outcome of a run that went on from another one. -/
def behind (first o : Outcome) : Outcome := { o with errors := first.errors ++ o.errors }

/-- Two outcomes are the same but for the indices of failed stages. -/
structure Renumbered (k : ℕ) (o o' : Outcome) : Prop where
  /-- The values are the same. -/
  value : o'.value = o.value
  /-- The value was rejected in both or in neither. -/
  filtered : o'.filtered = o.filtered
  /-- The failures are the same at later indices. -/
  errors : List.Forall₂ (EventPipeline.Renumbered k) o.errors o'.errors

theorem Renumbered.noting {k : ℕ} {o o' : Outcome} (h : Renumbered k o o') (i : ℕ) (s : Stage) (f : Failure) :
    Renumbered k (o.noting (s.failure i f)) (o'.noting (s.failure (i + k) f)) :=
  ⟨h.value, h.filtered, .cons ⟨i, s, f, rfl, rfl⟩ h.errors⟩

end Outcome

namespace Chain

section Append

variable {S : Type} (intake : Intake (StateM S))

/-- Goes on from a run with further stages, if it delivered anything. -/
def goOn (i : ℕ) (after : List Stage) (first : Outcome × S) : Outcome × S :=
  match first.1.delivered? with
  | none => first
  | some x => ((runWith intake i (some x) after).run first.2).map first.1.behind id

theorem goOn_of_none {i : ℕ} {after : List Stage} {first : Outcome × S} (h : first.1.delivered? = none) :
    goOn intake i after first = first := by
  rw [goOn, h]

theorem goOn_of_some {i : ℕ} {after : List Stage} {first : Outcome × S} {x : Value}
    (h : first.1.delivered? = some x) :
    goOn intake i after first = ((runWith intake i (some x) after).run first.2).map first.1.behind id := by
  rw [goOn, h]

theorem goOn_noting (i : ℕ) (after : List Stage) (f : Failure) (first : Outcome × S) :
    goOn intake i after (first.map (Outcome.noting f) id) = (goOn intake i after first).map (Outcome.noting f) id := by
  have hmap : (first.map (Outcome.noting f) id).1.delivered? = first.1.delivered? := rfl
  cases h : first.1.delivered? with
  | none => rw [goOn_of_none intake h, goOn_of_none intake (hmap.trans h)]
  | some x =>
    rw [goOn_of_some intake h, goOn_of_some intake (hmap.trans h)]
    rfl

/-- A stage that failed adds its failure to the outcome of the stages behind it. -/
theorem run_noting (f : Failure) (run : StateM S Outcome) (s : S) :
    StateT.run (do return (← run).noting f) s = (run.run s).map (Outcome.noting f) id := rfl

/-- **A chain in two parts.** The second part goes on with what the first one delivers. -/
theorem runWith_append (i : ℕ) (v : Option Value) (before after : List Stage) (s : S) :
    (runWith intake i v (before ++ after)).run s =
      goOn intake (i + before.length) after ((runWith intake i v before).run s) := by
  induction before generalizing i v s with
  | nil =>
    rcases v with _ | x
    · rw [List.nil_append, runWith_of_absent intake (.inl rfl)]
      rfl
    by_cases hx : x = .null
    · subst hx
      rw [List.nil_append, runWith_of_absent intake (.inr rfl)]
      rfl
    · have hdelivered : ((⟨some x, false, []⟩ : Outcome), s).1.delivered? = some x := by
        cases x <;> first | rfl | exact absurd rfl hx
      exact (goOn_of_some intake hdelivered).symm
  | cons stage before ih =>
    have hlength : i + (stage :: before).length = i + 1 + before.length := by
      rw [List.length_cons]
      omega
    rcases v with _ | x
    · rfl
    by_cases hx : x = .null
    · subst hx
      rfl
    rw [List.cons_append, hlength]
    cases stage with
    | filter accepts source =>
      rw [runWith_filter intake hx, runWith_filter intake hx]
      rcases accepts x with f | _ | _
      · rw [run_noting, run_noting, goOn_noting, ih]
      · rfl
      · exact ih _ _ _
    | transform map source =>
      rw [runWith_transform intake hx, runWith_transform intake hx]
      rcases map x with f | y
      · rw [run_noting, run_noting, goOn_noting, ih]
      · exact ih _ _ _
    | aggregate window reduce source =>
      rw [runWith_aggregate intake hx, runWith_aggregate intake hx, StateT.run_bind, StateT.run_bind]
      rcases (intake i window reduce x).run s with ⟨f | y, t⟩
      · exact (congrArg _ (ih _ _ _)).trans (goOn_noting intake _ _ _ _).symm
      · exact ih _ _ _

end Append

/-! ### Where a run begins -/

/-- A run that begins at a later index comes to the same, but for the indices of failed stages. -/
theorem renumbered_runWith (field : Text) (i k : ℕ) (v : Option Value) (stages : List Stage) (a : Accumulator) :
    Outcome.Renumbered k ((runWith (bufferIntake field) i v stages).run a).1
        ((runWith (bufferIntake field) (i + k) v stages).run a).1 ∧
      ((runWith (bufferIntake field) (i + k) v stages).run a).2 =
        ((runWith (bufferIntake field) i v stages).run a).2 := by
  induction stages generalizing i v a with
  | nil => exact ⟨⟨rfl, rfl, .nil⟩, rfl⟩
  | cons stage stages ih =>
    have ih := fun v a => Nat.add_right_comm i k 1 ▸ ih (i + 1) v a
    rcases v with _ | x
    · exact ⟨⟨rfl, rfl, .nil⟩, rfl⟩
    by_cases hx : x = .null
    · subst hx
      exact ⟨⟨rfl, rfl, .nil⟩, rfl⟩
    have hfails : ∀ s f a, Outcome.Renumbered k
        (((runWith (bufferIntake field) (i + 1) (some x) stages).run a).1.noting (Stage.failure i s f))
        (((runWith (bufferIntake field) (i + k + 1) (some x) stages).run a).1.noting (Stage.failure (i + k) s f)) :=
      fun s f a => (ih (some x) a).1.noting i s f
    cases stage with
    | filter accepts source =>
      rw [runWith_filter _ hx, runWith_filter _ hx]
      rcases accepts x with f | _ | _
      · exact ⟨hfails _ f a, (ih (some x) a).2⟩
      · exact ⟨⟨rfl, rfl, .nil⟩, rfl⟩
      · exact ih (some x) a
    | transform map source =>
      rw [runWith_transform _ hx, runWith_transform _ hx]
      rcases map x with f | y
      · exact ⟨hfails _ f a, (ih (some x) a).2⟩
      · exact ih (some y) a
    | aggregate window reduce source =>
      rw [runWith_aggregate _ hx, runWith_aggregate _ hx, StateT.run_bind, StateT.run_bind]
      have hintake : bufferIntake field (i + k) window reduce x = bufferIntake field i window reduce x := rfl
      rw [hintake]
      rcases (bufferIntake field i window reduce x).run a with ⟨f | y, b⟩
      · exact ⟨hfails _ f b, (ih (some x) b).2⟩
      · exact ih y b

/-! ### Stages that fail -/

/-- A run delivers its value unless that is null. -/
theorem delivered?_eq (o : Outcome) : o.delivered? = o.value.bind Value.present? := by
  unfold Outcome.delivered?
  rcases o.value with _ | x
  · rfl
  · cases x <;> rfl

theorem present?_of_ne_null {x : Value} (hx : x ≠ .null) : x.present? = some x := by
  cases x <;> first | rfl | exact absurd rfl hx

/-- Nothing that is delivered is null. -/
theorem ne_null_of_delivered {o : Outcome} {x : Value} (h : o.delivered? = some x) : x ≠ .null := by
  rintro rfl
  unfold Outcome.delivered? at h
  split at h
  · cases h
  · rename_i hnull
    exact hnull h

/-- One more stage goes on with what the stages in front of it deliver. -/
theorem run_take_succ {field : Text} {stages : List Stage} {i : ℕ} {s : Stage} {event x : Value} {a : Accumulator}
    (hs : stages[i]? = some s) (hx : ((run field (stages.take i) event).run a).1.delivered? = some x) :
    (run field (stages.take (i + 1)) event).run a =
      ((runWith (bufferIntake field) (0 + (stages.take i).length) (some x) [s]).run
        ((run field (stages.take i) event).run a).2).map ((run field (stages.take i) event).run a).1.behind id := by
  rw [List.take_add_one, hs]
  exact (runWith_append (bufferIntake field) 0 (some event) (stages.take i) [s] a).trans (goOn_of_some _ hx)

/-- A filter or a transform that fails on a value adds its failure, and the value goes on. -/
theorem runWith_of_failure {S : Type} (intake : Intake (StateM S)) {s : Stage} (hs : s.Plain) {x : Value}
    (hx : x ≠ .null) {field : Text} {a : Accumulator} {f : Failure} (hf : s.failure? field a x = some f) (i : ℕ)
    (rest : List Stage) (t : S) :
    (runWith intake i (some x) (s :: rest)).run t =
      ((runWith intake (i + 1) (some x) rest).run t).map (Outcome.noting (s.failure i f)) id := by
  cases s with
  | filter accepts source =>
    rw [runWith_filter intake hx]
    rw [Stage.failure?] at hf
    cases ha : accepts x with
    | ok b =>
      rw [ha] at hf
      cases hf
    | error g =>
      rw [ha] at hf
      cases hf
      exact run_noting _ _ t
  | transform map source =>
    rw [runWith_transform intake hx]
    rw [Stage.failure?] at hf
    cases hm : map x with
    | ok y =>
      rw [hm] at hf
      cases hf
    | error g =>
      rw [hm] at hf
      cases hf
      exact run_noting _ _ t
  | aggregate => exact absurd rfl hs

/-- **Without a filter or a transform that fails on what comes to it**, a run comes to the same, the
failures apart. -/
theorem run_without (field : Text) (before : List Stage) (s : Stage) (after : List Stage) (event : Value)
    (a : Accumulator) (hs : s.Plain) {x : Value} (hx : ((run field before event).run a).1.delivered? = some x)
    {f : Failure} (hf : s.failure? field ((run field before event).run a).2 x = some f) :
    ((run field (before ++ s :: after) event).run a).1.value = ((run field (before ++ after) event).run a).1.value ∧
      ((run field (before ++ s :: after) event).run a).1.filtered =
        ((run field (before ++ after) event).run a).1.filtered ∧
      ((run field (before ++ s :: after) event).run a).2 = ((run field (before ++ after) event).run a).2 := by
  obtain ⟨houtcome, hheld⟩ := renumbered_runWith field (0 + before.length) 1 (some x) after
    ((run field before event).run a).2
  simp only [run] at hx hf houtcome hheld ⊢
  rw [runWith_append, runWith_append, goOn_of_some _ hx, goOn_of_some _ hx,
    runWith_of_failure _ hs (ne_null_of_delivered hx) hf]
  exact ⟨houtcome.value, houtcome.filtered, hheld⟩

/-- The failure of the stage with an index during a run, if it fails on what the stages in front of it
deliver to it. -/
def failureAt? (field : Text) (stages : List Stage) (event : Value) (a : Accumulator) (i : ℕ) : Option Failure :=
  stages[i]?.bind fun s =>
    let first := (run field (stages.take i) event).run a
    first.1.delivered?.bind fun x => (s.failure? field first.2 x).map (s.failure i)

theorem stageIndex?_of_failureAt? {field : Text} {stages : List Stage} {event : Value} {a : Accumulator} {i : ℕ}
    {e : Failure} (h : failureAt? field stages event a i = some e) : e.stageIndex? = some (i : Int) := by
  simp only [failureAt?, Option.bind_eq_some_iff, Option.map_eq_some_iff] at h
  obtain ⟨s, -, x, -, f, -, rfl⟩ := h
  exact s.stageIndex?_failure i f

/-- The failures of a run through one stage. -/
theorem errors_single (field : Text) (i : ℕ) {x : Value} (hx : x ≠ .null) (s : Stage) (a : Accumulator) :
    ((runWith (bufferIntake field) i (some x) [s]).run a).1.errors = ((s.failure? field a x).map (s.failure i)).toList := by
  cases s with
  | filter accepts source =>
    rw [runWith_filter _ hx, Stage.failure?]
    rcases accepts x with f | _ | _ <;> rfl
  | transform map source =>
    rw [runWith_transform _ hx, Stage.failure?]
    rcases map x with f | y <;> rfl
  | aggregate window reduce source =>
    rw [runWith_aggregate _ hx, StateT.run_bind, Stage.failure?]
    have hintake : (bufferIntake field i window reduce x).run a = perform (Accumulator.accumulate field window reduce x) a :=
      rfl
    rw [hintake]
    rcases perform (Accumulator.accumulate field window reduce x) a with ⟨f | y, b⟩ <;> rfl

/-- **The failures of a run** are those of the stages that fail on what comes to them, in the order of the
stages. -/
theorem errors_run (field : Text) (stages : List Stage) (event : Value) (a : Accumulator) :
    ((run field stages event).run a).1.errors =
      (List.range stages.length).filterMap (failureAt? field stages event a) := by
  induction stages using List.reverseRecOn with
  | nil => rfl
  | append_singleton stages s ih =>
    have hearlier : (List.range stages.length).filterMap (failureAt? field (stages ++ [s]) event a) =
        (List.range stages.length).filterMap (failureAt? field stages event a) := by
      refine List.filterMap_congr fun i hi => ?_
      have hi := List.mem_range.1 hi
      rw [failureAt?, failureAt?, List.getElem?_append_left hi, List.take_append_of_le_length (Nat.le_of_lt hi)]
    have hlast : failureAt? field (stages ++ [s]) event a stages.length =
        ((run field stages event).run a).1.delivered?.bind fun x =>
          (s.failure? field ((run field stages event).run a).2 x).map (s.failure stages.length) := by
      rw [failureAt?, List.getElem?_concat_length, List.take_left]
      rfl
    rw [List.length_append, List.length_singleton, List.range_succ, List.filterMap_append, hearlier, ← ih,
      List.filterMap_cons, hlast]
    have happend := runWith_append (bufferIntake field) 0 (some event) stages [s] a
    simp only [run] at happend ⊢
    rw [happend]
    cases hx : ((runWith (bufferIntake field) 0 (some event) stages).run a).1.delivered? with
    | none => simp [goOn_of_none _ hx]
    | some x =>
      rw [goOn_of_some _ hx]
      have hsingle := errors_single field (0 + stages.length) (ne_null_of_delivered hx) s
        ((runWith (bufferIntake field) 0 (some event) stages).run a).2
      rw [Prod.map_fst, Outcome.behind, hsingle, Nat.zero_add, Option.bind_some]
      cases (s.failure? field ((runWith (bufferIntake field) 0 (some event) stages).run a).2 x) <;> rfl

/-- The indices that failures tell of are those of the stages that fail. -/
theorem map_stageIndex? (field : Text) (stages : List Stage) (event : Value) (a : Accumulator) (indices : List ℕ) :
    (indices.filterMap (failureAt? field stages event a)).map Failure.stageIndex? =
      (indices.filter fun i => (failureAt? field stages event a i).isSome).map fun i => some (i : Int) := by
  induction indices with
  | nil => rfl
  | cons i indices ih =>
    cases h : failureAt? field stages event a i with
    | none => simpa [h] using ih
    | some e => simpa [h, stageIndex?_of_failureAt? h] using ih

/-- **A run is made of the runs of its parts**, a stage that fails is passed over, and each failure tells of
one stage, in the order of the stages. -/
theorem run_by_parts (field : Text) (event : Value) (a : Accumulator) :
    (∀ before after : List Stage,
      let first := (run field before event).run a
      let whole := (run field (before ++ after) event).run a
      match first.1.delivered? with
      | none => whole = first
      | some x =>
        let second := (run field after x).run first.2
        whole.1.value = second.1.value ∧ whole.1.filtered = second.1.filtered ∧ whole.2 = second.2 ∧
          ∃ later, whole.1.errors = first.1.errors ++ later ∧
            List.Forall₂ (Renumbered before.length) second.1.errors later) ∧
    (∀ (before : List Stage) (s : Stage) (after : List Stage) (x : Value) (f : Failure),
      let first := (run field before event).run a
      s.Plain → first.1.delivered? = some x → s.failure? field first.2 x = some f →
        let whole := (run field (before ++ s :: after) event).run a
        let without := (run field (before ++ after) event).run a
        whole.1.value = without.1.value ∧ whole.1.filtered = without.1.filtered ∧ whole.2 = without.2) ∧
    ∀ stages : List Stage,
      let errors := ((run field stages event).run a).1.errors
      errors = (List.range stages.length).filterMap (failureAt? field stages event a) ∧
        ∃ indices : List ℕ, errors.map Failure.stageIndex? = indices.map (fun i => some (i : Int)) ∧
          indices.Pairwise (· < ·) := by
  refine ⟨fun before after => ?_, fun before s after x f hs hx hf => ?_, fun stages => ⟨?_, ?_⟩⟩
  · intro first whole
    have hwhole : whole = goOn (bufferIntake field) (0 + before.length) after first :=
      runWith_append (bufferIntake field) 0 (some event) before after a
    cases hx : first.1.delivered? with
    | none => exact hwhole.trans (goOn_of_none _ hx)
    | some x =>
      obtain ⟨houtcome, hheld⟩ := renumbered_runWith field 0 before.length (some x) after first.2
      rw [goOn_of_some _ hx] at hwhole
      rw [hwhole]
      exact ⟨houtcome.value, houtcome.filtered, hheld, _, rfl, houtcome.errors⟩
  · exact run_without field before s after event a hs hx hf
  · exact errors_run field stages event a
  · refine ⟨(List.range stages.length).filter fun i => (failureAt? field stages event a i).isSome, ?_,
      List.pairwise_lt_range.filter _⟩
    rw [errors_run, map_stageIndex?]

/-- A transform that fails in front of a window of two values that is about to close. -/
theorem run_by_parts_broken_transform :
    let keep : Stage := .filter (fun _ => .ok true) none
    let broken : Stage := .transform (fun _ => .error (.plain .value "broken")) none
    let pairs : Stage := .aggregate ⟨some 2, none⟩ (fun held => .ok (.array held)) none
    let held : Accumulator := ⟨[.int 1], ⟨[]⟩⟩
    (broken.Plain ∧ ((run "time" [keep] (.int 2)).run held).1.delivered? = some (.int 2) ∧
        broken.failure? "time" ((run "time" [keep] (.int 2)).run held).2 (.int 2) =
          some (.plain .value "broken")) ∧
      ((run "time" ([keep] ++ broken :: [pairs]) (.int 2)).run held).1.value =
        ((run "time" ([keep] ++ [pairs]) (.int 2)).run held).1.value ∧
      ((run "time" ([keep] ++ [pairs]) (.int 2)).run held).1.value = some (.array [.int 1, .int 2]) := by
  intro keep broken pairs held
  have hplain : broken.Plain := by decide
  have hvalue := ((run_by_parts "time" (.int 2) held).2.1 [keep] broken [pairs] (.int 2) (.plain .value "broken")
    hplain rfl rfl).1
  exact ⟨⟨hplain, rfl, rfl⟩, hvalue, rfl⟩

end Chain

end EventPipeline
