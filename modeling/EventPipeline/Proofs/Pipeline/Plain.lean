import EventPipeline.Proofs.Pipeline.Visits

/-!
# Stages that hold nothing back

Filters and transforms alone compute a partial function: a value goes through all of them, is lost on
the way, or makes one of them fail (`Chain.thread`). The chain runs a value through such stages the same
way, whatever comes before or behind them and however values are taken in (`runWith_thread_some`,
`runWith_thread_none`).
-/

namespace EventPipeline

/-- The stage is a filter or a transform. -/
def Stage.Plain (s : Stage) : Prop := s.kind ≠ .aggregate

instance (s : Stage) : Decidable s.Plain := inferInstanceAs (Decidable (s.kind ≠ .aggregate))

/-- A value that is not null. -/
def Value.present? : Value → Option Value
  | .null => none
  | v => some v

namespace Chain

/-- What filters and transforms make of a value; nothing if it is rejected or becomes null. A value
that comes to another stage stays there. -/
def thread : List Stage → Value → Except Failure (Option Value)
  | _, .null => .ok none
  | [], v => .ok (some v)
  | .filter accepts _ :: rest, v => do
    if ← accepts v then thread rest v else return none
  | .transform map _ :: rest, v => do
    thread rest (← map v)
  | .aggregate .. :: _, _ => .ok none

theorem thread_null (stages : List Stage) : thread stages .null = .ok none := by
  cases stages <;> rfl

theorem thread_filter {v : Value} (hv : v ≠ .null) (accepts : Value → Except Failure Bool) (source : Option Text)
    (rest : List Stage) :
    thread (.filter accepts source :: rest) v =
      match accepts v with
      | .ok true => thread rest v
      | .ok false => .ok none
      | .error f => .error f := by
  rw [thread]
  · rcases accepts v with _ | _ | _ <;> rfl
  · exact hv

theorem thread_transform {v : Value} (hv : v ≠ .null) (map : Value → Except Failure Value) (source : Option Text)
    (rest : List Stage) :
    thread (.transform map source :: rest) v =
      match map v with
      | .ok y => thread rest y
      | .error f => .error f := by
  rw [thread]
  · rcases map v with _ | _ <;> rfl
  · exact hv

/-- A null never comes out. -/
theorem ne_null_of_thread {stages : List Stage} {v x : Value} (h : thread stages v = .ok (some x)) :
    x ≠ .null := by
  induction stages generalizing v with
  | nil =>
    cases v <;> cases h <;> simp
  | cons s rest ih =>
    by_cases hv : v = .null
    · rw [hv, thread_null] at h
      cases h
    cases s with
    | filter accepts source =>
      rw [thread_filter hv] at h
      rcases ha : accepts v with _ | _ | _ <;> rw [ha] at h <;> first | cases h | exact ih h
    | transform map source =>
      rw [thread_transform hv] at h
      rcases hm : map v with _ | y <;> rw [hm] at h <;> first | cases h | exact ih h
    | aggregate => cases v <;> cases h

variable {m : Type → Type} [Monad m] (intake : Intake m) {stages : List Stage}

/-- **A value that goes through reaches the next stage**, and nothing else happens. -/
theorem runWith_thread_some (hs : ∀ s ∈ stages, s.Plain) {v x : Value} (h : thread stages v = .ok (some x))
    (i : Nat) (rest : List Stage) :
    runWith intake i (some v) (stages ++ rest) = runWith intake (i + stages.length) (some x) rest := by
  induction stages generalizing v i with
  | nil => cases v <;> cases h <;> rfl
  | cons s stages ih =>
    have ih := fun {v} => @ih (fun s hm => hs s (List.mem_cons_of_mem _ hm)) v
    have hlen : i + (s :: stages).length = i + 1 + stages.length := by
      rw [List.length_cons]
      omega
    by_cases hv : v = .null
    · rw [hv, thread_null] at h
      cases h
    rw [List.cons_append, hlen]
    cases s with
    | filter accepts source =>
      rw [thread_filter hv] at h
      rw [runWith_filter intake hv]
      rcases ha : accepts v with _ | _ | _ <;> rw [ha] at h <;> first | cases h | exact ih h (i + 1)
    | transform map source =>
      rw [thread_transform hv] at h
      rw [runWith_transform intake hv]
      rcases hm : map v with _ | y <;> rw [hm] at h <;> first | cases h | exact ih h (i + 1)
    | aggregate => exact absurd rfl (hs _ List.mem_cons_self)

/-- **A value that is lost ends the run** without a failure and without a result. -/
theorem runWith_thread_none (hs : ∀ s ∈ stages, s.Plain) {v : Value} (h : thread stages v = .ok none)
    (i : Nat) (rest : List Stage) :
    ∃ o : Outcome, o.delivered? = none ∧ o.errors = [] ∧ runWith intake i (some v) (stages ++ rest) = pure o := by
  induction stages generalizing v i with
  | nil =>
    have hv : v = .null := by
      cases v <;> first | rfl | cases h
    exact ⟨⟨some .null, false, []⟩, rfl, rfl, by rw [hv]; exact runWith_of_absent intake (.inr rfl) i _⟩
  | cons s stages ih =>
    have ih := fun {v} => @ih (fun s hm => hs s (List.mem_cons_of_mem _ hm)) v
    by_cases hv : v = .null
    · exact ⟨⟨some .null, false, []⟩, rfl, rfl, by rw [hv]; exact runWith_of_absent intake (.inr rfl) i _⟩
    rw [List.cons_append]
    cases s with
    | filter accepts source =>
      rw [thread_filter hv] at h
      rw [runWith_filter intake hv]
      rcases ha : accepts v with _ | _ | _ <;> rw [ha] at h
      · cases h
      · exact ⟨⟨none, true, []⟩, rfl, rfl, rfl⟩
      · exact ih h (i + 1)
    | transform map source =>
      rw [thread_transform hv] at h
      rw [runWith_transform intake hv]
      rcases hm : map v with _ | y <;> rw [hm] at h
      · cases h
      · exact ih h (i + 1)
    | aggregate => exact absurd rfl (hs _ List.mem_cons_self)

/-- The last stages of a chain deliver what they make of a value. -/
theorem runWith_thread (hs : ∀ s ∈ stages, s.Plain) {v : Value} {r : Option Value} (h : thread stages v = .ok r)
    (i : Nat) : ∃ o : Outcome, o.delivered? = r ∧ o.errors = [] ∧ runWith intake i (some v) stages = pure o := by
  rw [← List.append_nil stages]
  cases r with
  | none => exact runWith_thread_none intake hs h i []
  | some x =>
    refine ⟨⟨some x, false, []⟩, ?_, rfl, runWith_thread_some intake hs h i []⟩
    have hx := ne_null_of_thread h
    cases x <;> first | rfl | exact absurd rfl hx

end Chain

end EventPipeline
