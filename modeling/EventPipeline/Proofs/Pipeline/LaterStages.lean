import EventPipeline.Proofs.Pipeline.Counting

/-!
# Aggregate stages behind the first one

All aggregate stages of a chain share one buffer. A value gets past an aggregate stage only when its
window closes, and that empties the buffer; so as long as no aggregate stage fails, the stages behind the
first one always find the buffer empty (`held_of_later`), and a reducer of theirs is given one value. A
window of two values and more never closes there (`window?_of_short`).

The visits of a run are unfolded one stage at a time (`visitsFrom_cases`): a stage that does not aggregate
only changes the value, and an aggregate stage adds one visit in front.
-/

namespace EventPipeline

/-- The stage did not fail. -/
def Visit.Succeeds (v : Visit) : Prop := ∃ y, v.result = .ok y

namespace Chain

/-- The index of the first aggregate stage. -/
def firstAggregate? (stages : List Stage) : Option ℕ := stages.findIdx? fun s => s.kind == .aggregate

/-! ### Visits one stage at a time -/

/-- The visits of a run that begins at a stage with an index. -/
def visitsFrom (field : Text) (i : ℕ) (v : Option Value) (stages : List Stage) (a : Accumulator) : List Visit :=
  ((runWith (watchingIntake field) i v stages).run (a, [])).2.2

/-- A whole run begins at the first stage with the event. -/
theorem visits_eq (field : Text) (stages : List Stage) (event : Value) (a : Accumulator) :
    visits field stages event a = visitsFrom field 0 (some event) stages a := rfl

/-- Visits that have been kept already stay in front. -/
theorem run_watchingIntake_log (field : Text) (i : ℕ) (v : Option Value) (stages : List Stage) (a : Accumulator)
    (log : List Visit) :
    ((runWith (watchingIntake field) i v stages).run (a, log)).2.2 = log ++ visitsFrom field i v stages a := by
  have hintake : ∀ i w r x (s : Accumulator × List Visit), (watchingIntake field i w r x).run (s.1, log ++ s.2) =
      ((watchingIntake field i w r x).run s).map id fun t : Accumulator × List Visit => (t.1, log ++ t.2) := by
    rintro i w r x ⟨b, vs⟩
    rw [run_watchingIntake, run_watchingIntake, List.append_assoc]
    rfl
  have h := runWith_map (fun s : Accumulator × List Visit => (s.1, log ++ s.2)) hintake stages i v (a, [])
  rw [List.append_nil] at h
  rw [h]
  rfl

theorem visitsFrom_of_absent (field : Text) {v : Option Value} (hv : v = none ∨ v = some .null) (i : ℕ)
    (stages : List Stage) (a : Accumulator) : visitsFrom field i v stages a = [] := by
  rw [visitsFrom, runWith_of_absent _ hv]
  rfl

/-- What comes of a visit goes on to the next stage; a stage that fails is passed over. -/
def passedOn (x : Value) : Except Failure (Option Value) → Option Value
  | .ok y => y
  | .error _ => some x

/-- A stage that does not aggregate makes no visit. -/
theorem visitsFrom_plain (field : Text) {s : Stage} (hs : s.kind ≠ .aggregate) (i : ℕ) (v : Option Value)
    (rest : List Stage) (a : Accumulator) :
    ∃ y, visitsFrom field i v (s :: rest) a = visitsFrom field (i + 1) y rest a := by
  by_cases hv : v = none ∨ v = some .null
  · refine ⟨none, ?_⟩
    rw [visitsFrom_of_absent field hv, visitsFrom_of_absent field (.inl rfl)]
  · obtain ⟨x, rfl⟩ := Option.ne_none_iff_exists'.1 fun h => hv (.inl h)
    have hx : x ≠ .null := fun h => hv (.inr (congrArg some h))
    cases s with
    | filter accepts source =>
      unfold visitsFrom
      rw [runWith_filter _ hx]
      rcases accepts x with f | _ | _
      · exact ⟨some x, by rw [StateT.run_bind]; rfl⟩
      · exact ⟨none, by rw [runWith_of_absent _ (.inl rfl)]; rfl⟩
      · exact ⟨some x, rfl⟩
    | transform map source =>
      unfold visitsFrom
      rw [runWith_transform _ hx]
      rcases map x with f | y
      · exact ⟨some x, by rw [StateT.run_bind]; rfl⟩
      · exact ⟨some y, rfl⟩
    | aggregate w reduce source => exact absurd rfl hs

/-- An aggregate stage is visited with the value, and then come the visits of the rest. -/
theorem visitsFrom_aggregate (field : Text) (i : ℕ) {x : Value} (hx : x ≠ .null) (w : Window)
    (reduce : List Value → Except Failure Value) (source : Option Text) (rest : List Stage) (a : Accumulator) :
    visitsFrom field i (some x) (.aggregate w reduce source :: rest) a =
      ⟨i, x, a.buffer, (perform (Accumulator.accumulate field w reduce x) a).1⟩ ::
        visitsFrom field (i + 1) (passedOn x (perform (Accumulator.accumulate field w reduce x) a).1) rest
          (perform (Accumulator.accumulate field w reduce x) a).2 := by
  rw [visitsFrom, runWith_aggregate _ hx, StateT.run_bind, run_watchingIntake]
  rcases perform (Accumulator.accumulate field w reduce x) a with ⟨f | y, b⟩
  · exact run_watchingIntake_log field (i + 1) (some x) rest b _
  · exact run_watchingIntake_log field (i + 1) y rest b _

/-- **The visits of a run at its first stage**: there are none, the stage makes none, or it makes one. -/
theorem visitsFrom_cases (field : Text) (s : Stage) (i : ℕ) (v : Option Value) (rest : List Stage) (a : Accumulator) :
    visitsFrom field i v (s :: rest) a = [] ∨
    (s.kind ≠ .aggregate ∧ ∃ y, visitsFrom field i v (s :: rest) a = visitsFrom field (i + 1) y rest a) ∨
    ∃ w reduce source x r b, s = .aggregate w reduce source ∧
      perform (Accumulator.accumulate field w reduce x) a = (r, b) ∧
      visitsFrom field i v (s :: rest) a = ⟨i, x, a.buffer, r⟩ :: visitsFrom field (i + 1) (passedOn x r) rest b := by
  by_cases hs : s.kind = .aggregate
  · by_cases hv : v = none ∨ v = some .null
    · exact .inl (visitsFrom_of_absent field hv i _ a)
    · obtain ⟨x, rfl⟩ := Option.ne_none_iff_exists'.1 fun h => hv (.inl h)
      cases s with
      | aggregate w reduce source =>
        have hx : x ≠ .null := fun h => hv (.inr (congrArg some h))
        exact .inr (.inr ⟨w, reduce, source, x, _, _, rfl, rfl, visitsFrom_aggregate field i hx w reduce source rest a⟩)
      | _ => cases hs
  · exact .inr (.inl ⟨hs, visitsFrom_plain field hs i v rest a⟩)

/-! ### Visits and stages -/

/-- The visit is what the stage makes of the value at some reading of the clock. -/
def VisitOf (field : Text) (s : Stage) (v : Visit) : Prop :=
  ∃ w reduce source clock, s = .aggregate w reduce source ∧
    v.result = (perform (Accumulator.accumulate field w reduce v.value) ⟨v.held, clock⟩).1

/-- Each visit is one of the stage with its index. -/
theorem visitOf_mem (field : Text) (stages : List Stage) (i : ℕ) (x : Option Value) (a : Accumulator) {v : Visit}
    (hv : v ∈ visitsFrom field i x stages a) : ∃ k s, v.index = i + k ∧ stages[k]? = some s ∧ VisitOf field s v := by
  induction stages generalizing i x a with
  | nil => cases hv
  | cons s rest ih =>
    have later : ∀ y b, v ∈ visitsFrom field (i + 1) y rest b →
        ∃ k s', v.index = i + k ∧ (s :: rest)[k]? = some s' ∧ VisitOf field s' v := by
      intro y b hm
      obtain ⟨k, s', hk, hs', hof⟩ := ih (i + 1) y b hm
      exact ⟨k + 1, s', by omega, hs', hof⟩
    rcases visitsFrom_cases field s i x rest a with h | ⟨-, y, h⟩ | ⟨w, reduce, source, x, r, b, rfl, hp, h⟩
    · rw [h] at hv
      cases hv
    · exact later y a (h ▸ hv)
    · rw [h] at hv
      rcases List.mem_cons.1 hv with rfl | hv
      · exact ⟨0, _, rfl, rfl, w, reduce, source, a.clock, rfl, (congrArg Prod.fst hp).symm⟩
      · exact later _ _ hv

/-! ### The buffer at later stages -/

/-- A visit that does not fail leaves the buffer empty, or nothing goes on. -/
theorem accumulate_succeeds {field : Text} {w : Window} {reduce : List Value → Except Failure Value} {x : Value}
    {a b : Accumulator} {y : Option Value} (h : perform (Accumulator.accumulate field w reduce x) a = (.ok y, b)) :
    y = none ∨ b.buffer = [] := by
  rcases Accumulator.accumulate_cases field w reduce x a with ⟨r, a', hp, -, hb⟩ | ⟨a', hp, -⟩ | ⟨f, a', hp, -⟩
  all_goals
    rw [hp] at h
    cases h
  · exact .inr hb
  · exact .inl rfl

/-- **From an empty buffer, every visit finds it empty.** -/
theorem held_of_empty (field : Text) (stages : List Stage) (i : ℕ) (x : Option Value) {a : Accumulator}
    (ha : a.buffer = []) (hok : ∀ v ∈ visitsFrom field i x stages a, v.Succeeds) :
    ∀ v ∈ visitsFrom field i x stages a, v.held = [] := by
  induction stages generalizing i x a with
  | nil => exact List.forall_mem_nil _
  | cons s rest ih =>
    rcases visitsFrom_cases field s i x rest a with h | ⟨-, y, h⟩ | ⟨w, reduce, source, x, r, b, rfl, hp, h⟩
    · rw [h]
      exact List.forall_mem_nil _
    · rw [h] at hok ⊢
      exact ih (i + 1) y ha hok
    · rw [h] at hok ⊢
      obtain ⟨⟨y, rfl⟩, hrest⟩ := List.forall_mem_cons.1 hok
      refine List.forall_mem_cons.2 ⟨ha, ?_⟩
      rcases accumulate_succeeds hp with rfl | hb
      · rw [passedOn, visitsFrom_of_absent field (.inl rfl)]
        exact List.forall_mem_nil _
      · exact ih (i + 1) _ hb hrest

/-- A visit to another stage than the first that aggregates finds the buffer empty, whatever was in it. -/
theorem held_of_other (field : Text) (stages : List Stage) (i : ℕ) (x : Option Value) (a : Accumulator)
    (hok : ∀ v ∈ visitsFrom field i x stages a, v.Succeeds) :
    ∀ v ∈ visitsFrom field i x stages a, (firstAggregate? stages).map (i + ·) = some v.index ∨ v.held = [] := by
  induction stages generalizing i x a with
  | nil => exact List.forall_mem_nil _
  | cons s rest ih =>
    rcases visitsFrom_cases field s i x rest a with h | ⟨hs, y, h⟩ | ⟨w, reduce, source, x, r, b, rfl, hp, h⟩
    · rw [h]
      exact List.forall_mem_nil _
    · have hfirst : (firstAggregate? (s :: rest)).map (i + ·) = (firstAggregate? rest).map (i + 1 + ·) := by
        rw [firstAggregate?, List.findIdx?_cons, if_neg (by simpa using hs), Option.map_map]
        refine congrArg (Option.map · _) (funext fun k => ?_)
        simp only [Function.comp_apply]
        omega
      rw [h, hfirst]
      exact ih (i + 1) y a (h ▸ hok)
    · rw [h] at hok ⊢
      obtain ⟨⟨y, rfl⟩, hrest⟩ := List.forall_mem_cons.1 hok
      refine List.forall_mem_cons.2 ⟨.inl rfl, ?_⟩
      rcases accumulate_succeeds hp with rfl | hb
      · rw [passedOn, visitsFrom_of_absent field (.inl rfl)]
        exact List.forall_mem_nil _
      · exact fun v hv => .inr (held_of_empty field rest (i + 1) _ hb hrest v hv)

/-- **Later aggregate stages find the buffer empty**, as long as none fails. -/
theorem held_of_later {field : Text} {stages : List Stage} {event : Value} {a : Accumulator}
    (hok : ∀ v ∈ visits field stages event a, v.Succeeds) {v : Visit} (hv : v ∈ visits field stages event a)
    (hl : firstAggregate? stages ≠ some v.index) : v.held = [] := by
  rw [visits_eq] at hok hv
  have h := held_of_other field stages 0 (some event) a hok v hv
  have hid : (0 + ·) = (id : ℕ → ℕ) := funext Nat.zero_add
  rw [hid, Option.map_id, id] at h
  exact h.resolve_left hl

/-- A window of two values and more does not close on one value. -/
theorem window?_of_short {field : Text} {stages : List Stage} {event : Value} {a : Accumulator} {v : Visit}
    (hv : v ∈ visits field stages event a) (hheld : v.held = []) {n : ℕ} (hn : 2 ≤ n)
    {reduce : List Value → Except Failure Value} {source : Option Text}
    (hs : stages[v.index]? = some (.aggregate ⟨some n, none⟩ reduce source)) : v.window? = none := by
  rw [visits_eq] at hv
  obtain ⟨k, s, hk, hsk, w, reduce', source', clock, rfl, hres⟩ := visitOf_mem field stages 0 (some event) a hv
  rw [Nat.zero_add] at hk
  rw [hk, hsk] at hs
  cases hs
  rw [hheld, Accumulator.perform_accumulate_count, if_neg (by rw [List.length_nil]; omega)] at hres
  rw [Visit.window?, hres]

/-! ### The list of aggregate stages -/

/-- The aggregate stages of stages that are numbered from some index on. -/
def aggregatesFrom : ℕ → List Stage → List (ℕ × Stage)
  | _, [] => []
  | n, s :: rest => if s.kind = .aggregate then (n, s) :: aggregatesFrom (n + 1) rest else aggregatesFrom (n + 1) rest

theorem aggregatesFrom_eq (stages : List Stage) (n : ℕ) :
    ((stages.zipIdx n).map fun (s, i) => (i, s)).filter (fun (_, s) => s.kind == .aggregate) =
      aggregatesFrom n stages := by
  induction stages generalizing n with
  | nil => rfl
  | cons s rest ih => simp only [List.zipIdx_cons, List.map_cons, List.filter_cons, ih, aggregatesFrom, beq_iff_eq]

theorem le_of_mem_aggregatesFrom {stages : List Stage} {n : ℕ} {x : ℕ × Stage} (h : x ∈ aggregatesFrom n stages) :
    n ≤ x.1 := by
  induction stages generalizing n with
  | nil => cases h
  | cons s rest ih =>
    rw [aggregatesFrom] at h
    split_ifs at h
    · rcases List.mem_cons.1 h with rfl | h
      · exact le_rfl
      · exact Nat.le_of_succ_le (ih h)
    · exact Nat.le_of_succ_le (ih h)

theorem aggregatesFrom_cases (stages : List Stage) (n : ℕ) :
    (aggregatesFrom n stages = [] ∧ firstAggregate? stages = none) ∨
    ∃ k stage rest, aggregatesFrom n stages = (n + k, stage) :: rest ∧ stage.kind = .aggregate ∧
      firstAggregate? stages = some k ∧ ∀ x ∈ rest, n + k < x.1 := by
  induction stages generalizing n with
  | nil => exact .inl ⟨rfl, rfl⟩
  | cons s rest ih =>
    rw [aggregatesFrom, firstAggregate?, List.findIdx?_cons]
    by_cases hs : s.kind = .aggregate
    · rw [if_pos hs, if_pos (beq_iff_eq.2 hs)]
      exact .inr ⟨0, s, _, rfl, hs, rfl, fun x hx => le_of_mem_aggregatesFrom hx⟩
    · rw [if_neg hs, if_neg (fun h => hs (beq_iff_eq.1 h)), ← firstAggregate?]
      rcases ih (n + 1) with ⟨hnil, hnone⟩ | ⟨k, stage, others, heq, hkind, hfirst, hlater⟩
      · exact .inl ⟨hnil, by rw [hnone]; rfl⟩
      · refine .inr ⟨k + 1, stage, others, ?_, hkind, by rw [hfirst]; rfl, fun x hx => ?_⟩
        · rw [heq, Nat.add_right_comm, Nat.add_assoc]
        · have := hlater x hx
          omega

/-- The aggregate stages are none, or the first one and others with other indices. -/
theorem aggregateStages_cases (stages : List Stage) :
    (aggregateStages stages = [] ∧ firstAggregate? stages = none) ∨
    ∃ i stage rest, aggregateStages stages = (i, stage) :: rest ∧ stage.kind = .aggregate ∧
      firstAggregate? stages = some i ∧ ∀ x ∈ rest, x.1 ≠ i := by
  rw [aggregateStages, aggregatesFrom_eq]
  rcases aggregatesFrom_cases stages 0 with h | ⟨k, stage, rest, heq, hkind, hfirst, hlater⟩
  · exact .inl h
  · rw [Nat.zero_add] at heq
    refine .inr ⟨k, stage, rest, heq, hkind, hfirst, fun x hx he => ?_⟩
    have := hlater x hx
    omega

end Chain

end EventPipeline
