import EventPipeline.Proofs.Pipeline.Composition

/-!
# Where values stay

A run delivers nothing for one of three reasons only: a filter rejected the value that came to it, an aggregate
stage holds it back, or it became null (`Stop`). At most one stage of a run stops its value, since no other is
reached behind it (`Chain.stopAt?_unique`). A run ends with nothing just if the event was null or some stage stopped
it, and it is on record as filtered just if that stage was a filter (`Chain.delivers_iff`). A stage that fails stops
nothing (`Stage.stop?_of_failure`).
-/

namespace EventPipeline

/-- Why a value does not get past a stage. -/
inductive Stop where
  /-- A filter rejected it. -/
  | rejected
  /-- An aggregate stage holds it back. -/
  | withheld
  /-- It became null. -/
  | null
  deriving DecidableEq

/-- Why a value that came to a stage does not get past it, if it does not. -/
def Stage.stop? (field : Text) (a : Accumulator) (x : Value) : Stage → Option Stop
  | .filter accepts _ =>
    match accepts x with
    | .ok false => some .rejected
    | _ => none
  | .transform map _ =>
    match map x with
    | .ok .null => some .null
    | _ => none
  | .aggregate w reduce _ =>
    match (perform (Accumulator.accumulate field w reduce x) a).1 with
    | .ok none => some .withheld
    | .ok (some .null) => some .null
    | _ => none

/-- A stage that fails stops nothing. -/
theorem Stage.stop?_of_failure {field : Text} {a : Accumulator} {x : Value} {s : Stage} {f : Failure}
    (h : s.failure? field a x = some f) : s.stop? field a x = none := by
  cases s with
  | filter accepts source => rw [stop?, failure?_eq_some_iff.1 h]
  | transform map source => rw [stop?, failure?_eq_some_iff.1 h]
  | aggregate w reduce source => rw [stop?, failure?_eq_some_iff.1 h]

namespace Chain

/-- Why the stage with an index stops what the stages in front of it deliver to it, if it does. -/
def stopAt? (field : Text) (stages : List Stage) (event : Value) (a : Accumulator) (i : ℕ) : Option Stop :=
  stages[i]?.bind fun s =>
    let first := (run field (stages.take i) event).run a
    first.1.delivered?.bind fun x => s.stop? field first.2 x

variable {field : Text} {stages : List Stage} {event : Value} {a : Accumulator}

/-- The outcome tells why the value was stopped, if it was. -/
def Shows (o : Outcome) (stop : Option Stop) : Prop :=
  (o.delivered? = none ↔ ∃ c, stop = some c) ∧ (o.filtered = true ↔ stop = some .rejected)

theorem shows_none {o : Outcome} {y : Value} (hy : y ≠ .null) (hvalue : o.value = some y)
    (hfiltered : o.filtered = false) : Shows o none := by
  have hdelivered : o.delivered? = some y := by
    rw [delivered?_eq, hvalue]
    exact present?_of_ne_null hy
  exact ⟨by simp [hdelivered], by simp [hfiltered]⟩

theorem shows_null {o : Outcome} (hvalue : o.value = some .null) (hfiltered : o.filtered = false) :
    Shows o (some .null) := by
  have hdelivered : o.delivered? = none := by
    rw [delivered?_eq, hvalue]
    rfl
  exact ⟨by simp [hdelivered], by simp [hfiltered]⟩

/-- What one stage makes of a value that comes to it. -/
theorem shows_single (i : ℕ) {x : Value} (hx : x ≠ .null) (s : Stage) (a : Accumulator) :
    Shows ((runWith (bufferIntake field) i (some x) [s]).run a).1 (s.stop? field a x) := by
  cases s with
  | filter accepts source =>
    rw [runWith_filter _ hx, Stage.stop?]
    rcases accepts x with f | _ | _
    · exact shows_none hx rfl rfl
    · exact ⟨iff_of_true rfl ⟨_, rfl⟩, iff_of_true rfl rfl⟩
    · exact shows_none hx rfl rfl
  | transform map source =>
    rw [runWith_transform _ hx, Stage.stop?]
    rcases map x with f | y
    · exact shows_none hx rfl rfl
    · cases y with
      | null => exact shows_null rfl rfl
      | _ => exact shows_none (by simp) rfl rfl
  | aggregate w reduce source =>
    have hintake : (bufferIntake field i w reduce x).run a = perform (Accumulator.accumulate field w reduce x) a := rfl
    rw [runWith_aggregate _ hx, StateT.run_bind, Stage.stop?, hintake]
    rcases perform (Accumulator.accumulate field w reduce x) a with ⟨f | _ | y, b⟩
    · exact shows_none hx rfl rfl
    · exact ⟨iff_of_true rfl ⟨_, rfl⟩, iff_of_false Bool.false_ne_true (by simp)⟩
    · cases y with
      | null => exact shows_null rfl rfl
      | _ => exact shows_none (by simp) rfl rfl

/-- The last stage is reached with what the others deliver. -/
theorem stopAt?_last (s : Stage) :
    stopAt? field (stages ++ [s]) event a stages.length =
      ((run field stages event).run a).1.delivered?.bind fun x =>
        s.stop? field ((run field stages event).run a).2 x := by
  rw [stopAt?, List.getElem?_concat_length, List.take_left]
  rfl

/-- The stages in front of another one stop what they stop without it. -/
theorem stopAt?_of_lt (s : Stage) {i : ℕ} (hi : i < stages.length) :
    stopAt? field (stages ++ [s]) event a i = stopAt? field stages event a i := by
  rw [stopAt?, stopAt?, List.getElem?_append_left hi, List.take_append_of_le_length (Nat.le_of_lt hi)]

theorem lt_of_stopAt? {i : ℕ} {c : Stop} (h : stopAt? field stages event a i = some c) : i < stages.length := by
  obtain ⟨s, hs, -⟩ := Option.bind_eq_some_iff.1 h
  exact (List.getElem?_eq_some_iff.1 hs).1

/-- A value is stopped by one of the stages in front or by the last one. -/
theorem exists_stopAt?_append (s : Stage) (c : Stop) :
    (∃ i, stopAt? field (stages ++ [s]) event a i = some c) ↔
      (∃ i, stopAt? field stages event a i = some c) ∨
        stopAt? field (stages ++ [s]) event a stages.length = some c := by
  constructor
  · rintro ⟨i, hi⟩
    have hlength := lt_of_stopAt? hi
    rw [List.length_append, List.length_singleton] at hlength
    rcases Nat.lt_succ_iff_lt_or_eq.1 hlength with hlt | rfl
    · exact .inl ⟨i, stopAt?_of_lt s hlt ▸ hi⟩
    · exact .inr hi
  · rintro (⟨i, hi⟩ | h)
    · exact ⟨i, (stopAt?_of_lt s (lt_of_stopAt? hi)).trans hi⟩
    · exact ⟨_, h⟩

/-- **A run delivers nothing** just if the event is null or some stage stops it, **and it is on record as filtered**
just if that is a filter. -/
theorem delivers_iff (field : Text) (stages : List Stage) (event : Value) (a : Accumulator) :
    (((run field stages event).run a).1.delivered? = none ↔
      event = .null ∨ ∃ c i, stopAt? field stages event a i = some c) ∧
    (((run field stages event).run a).1.filtered = true ↔ ∃ i, stopAt? field stages event a i = some .rejected) := by
  induction stages using List.reverseRecOn with
  | nil =>
    have hnone : ∀ i c, stopAt? field [] event a i ≠ some c := fun _ _ h => nomatch h
    refine ⟨?_, iff_of_false Bool.false_ne_true fun ⟨i, hi⟩ => hnone i _ hi⟩
    by_cases hevent : event = .null
    · subst hevent
      exact iff_of_true rfl (.inl rfl)
    · have hdelivered : ((run field [] event).run a).1.delivered? = some event :=
        (delivered?_eq _).trans (present?_of_ne_null hevent)
      refine iff_of_false (fun h => nomatch hdelivered.symm.trans h) ?_
      rintro (h | ⟨c, i, hi⟩)
      · exact hevent h
      · exact hnone i c hi
  | append_singleton stages s ih =>
    obtain ⟨ihdelivered, ihfiltered⟩ := ih
    have happend : (run field (stages ++ [s]) event).run a = _ :=
      runWith_append (bufferIntake field) 0 (some event) stages [s] a
    have hlast := @stopAt?_last field stages event a s
    simp only [exists_stopAt?_append, exists_or]
    cases hx : ((run field stages event).run a).1.delivered? with
    | none =>
      have hwhole : (run field (stages ++ [s]) event).run a = (run field stages event).run a :=
        happend.trans (goOn_of_none _ hx)
      rw [hx, Option.bind_none] at hlast
      rw [hwhole, hlast]
      simpa using ⟨ihdelivered, ihfiltered⟩
    | some x =>
      have hwhole : (run field (stages ++ [s]) event).run a = _ := happend.trans (goOn_of_some _ hx)
      obtain ⟨hdelivered, hfiltered⟩ := @shows_single field (0 + stages.length) x (ne_null_of_delivered hx) s
        ((run field stages event).run a).2
      have hpassed : ¬ (event = .null ∨ ∃ c i, stopAt? field stages event a i = some c) := fun h =>
        nomatch hx.symm.trans (ihdelivered.2 h)
      rw [hx, Option.bind_some] at hlast
      rw [hwhole, hlast]
      refine ⟨hdelivered.trans ⟨fun h => .inr (.inr h), ?_⟩, hfiltered.trans ⟨.inr, ?_⟩⟩
      · rintro (h | h | h)
        · exact absurd (.inl h) hpassed
        · exact absurd (.inr h) hpassed
        · exact h
      · rintro (h | h)
        · exact absurd (.inr ⟨_, h⟩) hpassed
        · exact h

/-- A stage that is not reached stops nothing. -/
theorem stopAt?_of_unreached {i : ℕ} (h : ((run field (stages.take i) event).run a).1.delivered? = none) :
    stopAt? field stages event a i = none := by
  rw [stopAt?]
  cases stages[i]? with
  | none => rfl
  | some s =>
    dsimp only [Option.bind_some]
    rw [h, Option.bind_none]

/-- A null is stopped by no stage, since it comes to none. -/
theorem stopAt?_null (i : ℕ) : stopAt? field stages .null a i = none :=
  stopAt?_of_unreached ((delivers_iff field (stages.take i) .null a).1.2 (.inl rfl))

/-- **At most one stage stops a value**: none behind it is reached. -/
theorem stopAt?_unique {i j : ℕ} {c d : Stop} (hi : stopAt? field stages event a i = some c)
    (hj : stopAt? field stages event a j = some d) : i = j := by
  have hfirst : ∀ {i j c d}, stopAt? field stages event a i = some c → stopAt? field stages event a j = some d →
      j ≤ i := by
    intro i j c d hi hj
    refine Nat.le_of_not_lt fun hlt => ?_
    have htake : stopAt? field (stages.take j) event a i = some c := by
      rw [← hi, stopAt?, stopAt?, List.getElem?_take_of_lt hlt, List.take_take, Nat.min_eq_left (Nat.le_of_lt hlt)]
    have hnone := stopAt?_of_unreached ((delivers_iff field (stages.take j) event a).1.2 (.inr ⟨c, i, htake⟩))
    rw [hnone] at hj
    cases hj
  exact Nat.le_antisymm (hfirst hj hi) (hfirst hi hj)

/-- **A filter that fails does not reject**: the value goes on as it came. -/
theorem run_failing_filter {i : ℕ} {accepts : Value → Except Failure Bool} {source : Option Text} {x : Value}
    {f : Failure} (hs : stages[i]? = some (.filter accepts source))
    (hx : ((run field (stages.take i) event).run a).1.delivered? = some x) (hf : accepts x = .error f) :
    stopAt? field stages event a i = none ∧
      ((run field (stages.take (i + 1)) event).run a).1.delivered? = some x := by
  have hfailure : (Stage.filter accepts source).failure? field ((run field (stages.take i) event).run a).2 x = some f :=
    failure?_eq_some_iff.2 hf
  constructor
  · rw [stopAt?, hs, Option.bind_some]
    dsimp only
    rw [hx, Option.bind_some, Stage.stop?_of_failure hfailure]
  · rw [run_take_succ hs hx, delivered?_eq, runWith_filter _ (ne_null_of_delivered hx), hf]
    exact present?_of_ne_null (ne_null_of_delivered hx)

end Chain

end EventPipeline
