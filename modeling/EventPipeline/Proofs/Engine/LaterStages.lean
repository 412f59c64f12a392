import EventPipeline.Proofs.Engine.Ledger
import EventPipeline.Proofs.Pipeline.LaterStages

/-!
# One window for a whole chain

What the shared buffer means for a run of an engine. A *turn* is one chance of an aggregate stage to reduce:
a value taken in, or the flush at the end of the stream. As long as no aggregate stage fails in its turn, the
stages behind the first aggregate stage find the buffer empty in every turn. So one of them that waits for
two values and more never reduces anything, and at the end of the stream the first aggregate stage is given
all that is held, values that later stages took in among it.

Filters and transforms, subscribers, the sink and the spilling may fail; spilled values may be reloaded
between events.
-/

namespace EventPipeline

open Movement (reducedIn reducedIn_append)

namespace Engine

/-! ### Turns -/

/-- A chance of an aggregate stage to reduce. -/
structure Turn where
  /-- The index of the stage. -/
  index : ℕ
  /-- The value taken in; at the end of the stream there is none. -/
  taken : Option Value
  /-- The values that were held before. -/
  held : Buffer
  /-- The reduction, if there was one, or how the stage failed. -/
  result : Except Failure (Option Value)

namespace Turn

/-- A visit is a turn. -/
def ofVisit (v : Visit) : Turn := ⟨v.index, some v.value, v.held, v.result⟩

/-- The stage did not fail. -/
def Succeeds (t : Turn) : Prop := ∃ y, t.result = .ok y

/-- The window that the stage reduced, if it did. -/
def window? (t : Turn) : Option (List Value) :=
  match t.result with
  | .ok (some _) => some (t.held ++ t.taken.toList)
  | _ => none

theorem window?_ofVisit (v : Visit) : (ofVisit v).window? = v.window? := by
  unfold window? Visit.window?
  rfl

end Turn

variable {σ κ : Type} [Drain κ] (env : Environment σ κ)

/-- What comes of the flush of a stage. -/
def flushResult (stage : Stage) (s : Session σ κ) : Except Failure (Option Value) :=
  match stage with
  | .aggregate _ reduce _ => (perform (Accumulator.flush reduce) ⟨s.engine.buffer, s.world.clock⟩).1
  | _ => .ok none

/-- The turns of stages that are flushed. A write that fails with a subscriber ends the flush. -/
def flushTurns : List (ℕ × Stage) → Session σ κ → List Turn
  | [], _ => []
  | x :: rest, s =>
    ⟨x.1, none, s.engine.buffer, flushResult x.2 s⟩ ::
      match perform (flushOne env x) s with
      | (.ok _, t) => flushTurns rest t
      | (.error _, _) => []

/-- The turns of aggregate stages in a request. -/
def turns (r : Request) (s : Session σ κ) : List Turn :=
  match r with
  | .event v =>
    (Chain.visits s.engine.settings.timestampField s.engine.stages v ⟨s.engine.buffer, s.world.clock⟩).map Turn.ofVisit
  | .finish => flushTurns env (Chain.aggregateStages s.engine.stages) s
  | .reload | .others _ => []

/-- The turns of aggregate stages in requests, in order. -/
def turnsAll : List Request → Session σ κ → List Turn
  | [], _ => []
  | r :: rs, s => turns env r s ++ turnsAll rs (after env r s)

theorem turnsAll_append (rs rs' : List Request) (s : Session σ κ) :
    turnsAll env (rs ++ rs') s = turnsAll env rs s ++ turnsAll env rs' (afterAll env rs s) := by
  induction rs generalizing s with
  | nil => rfl
  | cons r rs ih => rw [List.cons_append, turnsAll, turnsAll, afterAll, ih, List.append_assoc]

/-! ### Turns and the ledger -/

omit [Drain κ] in
/-- The window of a flush is the one that the ledger counts. -/
theorem window?_flush (x : ℕ × Stage) (s : Session σ κ) :
    (Turn.mk x.1 none s.engine.buffer (flushResult x.2 s)).window? = flushed? s x := by
  obtain ⟨i, stage⟩ := x
  cases stage with
  | filter => rfl
  | transform => rfl
  | aggregate w reduce source =>
    simp only [Turn.window?, flushResult, flushed?, Accumulator.perform_flush]
    by_cases hb : s.engine.buffer = []
    · rw [if_pos hb, if_pos hb]
    · rw [if_neg hb, if_neg hb]
      cases reduce s.engine.buffer <;> simp

theorem reducedIn_flushMoves (stages : List (ℕ × Stage)) (s : Session σ κ) :
    reducedIn (flushMoves env stages s) = (flushTurns env stages s).filterMap Turn.window? := by
  induction stages generalizing s with
  | nil => rfl
  | cons x rest ih =>
    rw [flushMoves, flushTurns, reducedIn_append, List.filterMap_cons, window?_flush]
    rcases perform (flushOne env x) s with ⟨_ | _, t⟩
    · cases flushed? s x <;> rfl
    · simp only [ih]
      cases flushed? s x <;> rfl

/-- **The windows of the turns are those that the ledger counts as reduced.** -/
theorem reducedIn_ledger (rs : List Request) (s : Session σ κ) :
    reducedIn (ledger env rs s) = (turnsAll env rs s).filterMap Turn.window? := by
  induction rs generalizing s with
  | nil => rfl
  | cons r rs ih =>
    rw [ledger, turnsAll, reducedIn_append, List.filterMap_append, ih]
    refine congrArg (· ++ _) ?_
    cases r with
    | event v =>
      have hw : Turn.window? ∘ Turn.ofVisit = Visit.window? := funext Turn.window?_ofVisit
      simp only [moves, turns, reducedIn_append, Movement.reducedIn_visits, Movement.reducedIn_spilled,
        List.append_nil, List.filterMap_map, hw, Chain.windows]
    | finish => exact reducedIn_flushMoves env _ s
    | reload => rfl
    | others change => rfl

/-! ### What a request leaves alone -/

/-- The stages stay the same. -/
def SameStages (s t : Session σ κ) : Prop := t.engine.stages = s.engine.stages

omit [Drain κ] in
theorem Aside.sameStages {s t : Session σ κ} (h : Aside s t) : SameStages s t := by
  obtain ⟨_, _, _, _, _, _, rfl⟩ := h
  rfl

instance : IsPreorder (Session σ κ) SameStages where
  refl _ := rfl
  trans _ _ _ h h' := h'.trans h

omit [Drain κ] in
theorem sameStages_onSpill {α : Type} (action : Spilling α) :
    Leads SameStages (onSpill action : EngineAction σ κ α) := by
  intro s
  rw [perform_onSpill]
  rfl

theorem sameStages_onSink (v : Value) : Leads SameStages (onSink (Drain.write v) : EngineAction σ κ Unit) := by
  intro s
  rw [perform_onSink]
  cases s.engine.sink <;> rfl

/-- No request changes the stages. -/
theorem sameStages_after (r : Request) (s : Session σ κ) : SameStages s (after env r s) := by
  cases r with
  | event v =>
    exact leads_process env (fun _ _ => Aside.sameStages) sameStages_onSink (fun _ => sameStages_onSpill _)
      (fun _ _ _ => rfl) v s
  | finish =>
    exact leads_finish env (fun _ _ => Aside.sameStages) sameStages_onSink (fun _ _ _ => rfl) s
  | reload =>
    refine Leads.bind (Leads.bind (sameStages_onSpill _).lift fun r => ?_) (fun _ => Leads.pure _) s
    rcases r with f | _ | r
    · exact Leads.bind ((leads_report env f).mono fun _ _ => Aside.sameStages) fun _ => Leads.pure _
    · exact Leads.pure _
    · refine Leads.mono (fun _ _ => Aside.sameStages) ?_
      exact Leads.bind (leads_count _ _) fun _ => Leads.bind (leads_record _ _ _ _) fun _ => Leads.pure _
  | others change => rfl

theorem sameStages_afterAll (rs : List Request) (s : Session σ κ) : SameStages s (afterAll env rs s) := by
  induction rs generalizing s with
  | nil => rfl
  | cons r rs ih => exact trans_of SameStages (sameStages_after env r s) (ih (after env r s))

/-- The buffer stays the same. -/
def SameBuffer (s t : Session σ κ) : Prop := t.engine.buffer = s.engine.buffer

instance : IsPreorder (Session σ κ) SameBuffer where
  refl _ := rfl
  trans _ _ _ h h' := h'.trans h

/-- A write leaves the buffer alone. -/
theorem sameBuffer_deliver (v : Value) : Leads SameBuffer (deliver env v) := by
  refine leads_deliver env (fun s t h => ?_) (fun v s => ?_) v
  · exact congrArg SpillState.buffer h.store_eq
  · rw [perform_onSink]
    cases s.engine.sink <;> rfl

/-- The flush of a stage empties the buffer if the reducer takes it; the write leaves the buffer alone. -/
theorem buffer_flushOne (x : ℕ × Stage) (s : Session σ κ) :
    (perform (flushOne env x) s).2.engine.buffer = if (flushed? s x).isSome then [] else s.engine.buffer := by
  have hstage := congrArg SpillState.buffer (store_flushStage env x s)
  have hflush : (perform (flushStage env x) s).2.engine.buffer =
      if (flushed? s x).isSome then [] else s.engine.buffer := by
    refine Eq.trans hstage ?_
    split_ifs <;> rfl
  rw [← hflush, flushOne, perform_bind]
  rcases perform (flushStage env x) s with ⟨_ | _ | v, t⟩
  · rfl
  · rfl
  · exact sameBuffer_deliver env v t

/-! ### One request -/

/-- A turn that finds nothing to reduce. -/
structure Idle (t : Turn) : Prop where
  /-- Nothing is held. -/
  held : t.held = []
  /-- Nothing comes of it. -/
  result : t.result = .ok none

theorem Idle.window? {t : Turn} (h : Idle t) : t.window? = none := by
  rw [Turn.window?, h.result]

omit [Drain κ] in
/-- The flush of an empty buffer. -/
theorem flushResult_of_empty {s : Session σ κ} (hs : s.engine.buffer = []) (stage : Stage) :
    flushResult stage s = .ok none := by
  cases stage with
  | aggregate w reduce source => rw [flushResult, Accumulator.perform_flush, if_pos hs]
  | _ => rfl

/-- Once the buffer is empty, the stages that are still to be flushed find it empty. -/
theorem idle_of_empty (stages : List (ℕ × Stage)) {s : Session σ κ} (hs : s.engine.buffer = []) :
    ∀ t ∈ flushTurns env stages s, Idle t := by
  induction stages generalizing s with
  | nil => exact List.forall_mem_nil _
  | cons x rest ih =>
    rw [flushTurns]
    refine List.forall_mem_cons.2 ⟨⟨hs, flushResult_of_empty hs _⟩, ?_⟩
    · have hb := buffer_flushOne env x s
      rw [hs, ite_self] at hb
      rcases hp : perform (flushOne env x) s with ⟨_ | _, t⟩
      · exact List.forall_mem_nil _
      · rw [hp] at hb
        exact ih hb

/-- The end of the stream: the first aggregate stage is given all that is held, and the others find the
buffer empty. -/
structure FlushedByFirst (s : Session σ κ) (first : ℕ) (ts : List Turn) : Prop where
  /-- The first turn is that of the first stage, and all that is held is given to it. -/
  head : ∃ t rest, ts = t :: rest ∧ t.index = first ∧ t.taken = none ∧ t.held = s.engine.buffer ∧
    (s.engine.buffer ≠ [] → t.window? = some s.engine.buffer) ∧
    -- the other stages have nothing to reduce
    ∀ u ∈ rest, u.index ≠ first ∧ Idle u

theorem index_flushTurns (stages : List (ℕ × Stage)) (s : Session σ κ) :
    ∀ t ∈ flushTurns env stages s, ∃ x ∈ stages, t.index = x.1 := by
  induction stages generalizing s with
  | nil => exact List.forall_mem_nil _
  | cons x rest ih =>
    rw [flushTurns]
    refine List.forall_mem_cons.2 ⟨⟨x, List.mem_cons_self, rfl⟩, ?_⟩
    rcases perform (flushOne env x) s with ⟨_ | _, t⟩
    · exact List.forall_mem_nil _
    · intro u hu
      obtain ⟨y, hy, he⟩ := ih t u hu
      exact ⟨y, List.mem_cons_of_mem _ hy, he⟩

/-- **The end of the stream, if no stage fails.** -/
theorem flushTurns_cases (s : Session σ κ) (hok : ∀ t ∈ turns env .finish s, t.Succeeds) :
    (Chain.firstAggregate? s.engine.stages = none ∧ turns env .finish s = []) ∨
    ∃ first, Chain.firstAggregate? s.engine.stages = some first ∧ FlushedByFirst s first (turns env .finish s) := by
  rcases Chain.aggregateStages_cases s.engine.stages with ⟨hnil, hnone⟩ | ⟨i, stage, rest, heq, hkind, hfirst, hothers⟩
  · exact .inl ⟨hnone, by rw [turns, hnil, flushTurns]⟩
  · right
    refine ⟨i, hfirst, ?_⟩
    rw [turns, heq, flushTurns] at hok ⊢
    obtain ⟨⟨y, hy⟩, -⟩ := List.forall_mem_cons.1 hok
    have hwindow := window?_flush (i, stage) s
    have hgiven : s.engine.buffer ≠ [] → flushed? s (i, stage) = some s.engine.buffer := by
      intro hb
      cases stage with
      | aggregate w reduce source =>
        simp only [flushResult, Accumulator.perform_flush, if_neg hb] at hy
        rw [flushed?, if_neg hb]
        cases hr : reduce s.engine.buffer with
        | error f =>
          rw [hr] at hy
          cases hy
        | ok r => rfl
      | _ => cases hkind
    refine ⟨_, _, rfl, rfl, rfl, rfl, fun hb => hwindow.trans (hgiven hb), ?_⟩
    have hempty : (perform (flushOne env (i, stage)) s).2.engine.buffer = [] := by
      rw [buffer_flushOne]
      by_cases hb : s.engine.buffer = []
      · rw [hb, ite_self]
      · rw [hgiven hb]
        rfl
    rcases hp : perform (flushOne env (i, stage)) s with ⟨_ | _, t⟩
    · exact List.forall_mem_nil _
    · rw [hp] at hempty
      intro u hu
      obtain ⟨x, hx, he⟩ := index_flushTurns env rest t u hu
      exact ⟨he ▸ hothers x hx, idle_of_empty env rest hempty u hu⟩

/-- **In a request without failures, every turn but those of the first stage finds the buffer empty**, and
a window of two values and more does not close in it. -/
theorem later_turns (r : Request) (s : Session σ κ) (hok : ∀ t ∈ turns env r s, t.Succeeds) {t : Turn}
    (ht : t ∈ turns env r s) (hl : Chain.firstAggregate? s.engine.stages ≠ some t.index) :
    t.held = [] ∧ ∀ n reduce source, 2 ≤ n →
      s.engine.stages[t.index]? = some (.aggregate ⟨some n, none⟩ reduce source) → t.window? = none := by
  cases r with
  | event x =>
    obtain ⟨v, hv, rfl⟩ := List.mem_map.1 ht
    have hsucceed : ∀ v ∈ Chain.visits s.engine.settings.timestampField s.engine.stages x
        ⟨s.engine.buffer, s.world.clock⟩, v.Succeeds :=
      fun v hv => hok _ (List.mem_map.2 ⟨v, hv, rfl⟩)
    have hheld := Chain.held_of_later hsucceed hv hl
    refine ⟨hheld, fun n reduce source hn hs => ?_⟩
    rw [Turn.window?_ofVisit]
    exact Chain.window?_of_short hv hheld hn hs
  | finish =>
    rcases flushTurns_cases env s hok with ⟨-, hnil⟩ | ⟨first, hfirst, t₀, rest, heq, hindex, -, -, -, hrest⟩
    · rw [hnil] at ht
      cases ht
    · rw [heq] at ht
      rcases List.mem_cons.1 ht with rfl | ht
      · exact absurd (hfirst.trans (congrArg some hindex.symm)) hl
      · exact ⟨(hrest t ht).2.held, fun _ _ _ _ _ => (hrest t ht).2.window?⟩
  | reload => cases ht
  | others change => cases ht

/-! ### All requests -/

/-- In a run without failures, later stages find the buffer empty. -/
theorem later_turnsAll (rs : List Request) (s : Session σ κ) (hok : ∀ t ∈ turnsAll env rs s, t.Succeeds) {t : Turn}
    (ht : t ∈ turnsAll env rs s) (hl : Chain.firstAggregate? s.engine.stages ≠ some t.index) :
    t.held = [] ∧ ∀ n reduce source, 2 ≤ n →
      s.engine.stages[t.index]? = some (.aggregate ⟨some n, none⟩ reduce source) → t.window? = none := by
  induction rs generalizing s with
  | nil => cases ht
  | cons r rs ih =>
    rw [turnsAll] at hok ht
    rcases List.mem_append.1 ht with ht | ht
    · exact later_turns env r s (fun t ht => hok t (List.mem_append_left _ ht)) ht hl
    · have hstages : (after env r s).engine.stages = s.engine.stages := sameStages_after env r s
      rw [← hstages] at hl ⊢
      exact ih (after env r s) (fun t ht => hok t (List.mem_append_right _ ht)) ht hl

/-- **Later aggregate stages never build a window.** While a chain threads an event and no aggregate stage
fails, each of them but the first finds the buffer empty, and what it reduces is the one value that it took
in. So in a run in which none fails, a later stage that waits for two values and more never reduces, and at
each end of the stream all that is held is given to the first aggregate stage. -/
theorem later_stages_build_no_window (s : Session σ κ) :
    (∀ field stages event a, (∀ v ∈ Chain.visits field stages event a, v.Succeeds) →
      ∀ v ∈ Chain.visits field stages event a, Chain.firstAggregate? stages ≠ some v.index →
        v.held = [] ∧ ∀ w, v.window? = some w → w = [v.value]) ∧
    ∀ rs, (∀ t ∈ turnsAll env rs s, t.Succeeds) →
      (∀ t ∈ turnsAll env rs s, Chain.firstAggregate? s.engine.stages ≠ some t.index →
        ∀ n reduce source, 2 ≤ n → s.engine.stages[t.index]? = some (.aggregate ⟨some n, none⟩ reduce source) →
          t.window? = none) ∧
      ∀ front back, rs = front ++ .finish :: back → ∀ first, Chain.firstAggregate? s.engine.stages = some first →
        FlushedByFirst (afterAll env front s) first (turns env .finish (afterAll env front s)) := by
  refine ⟨fun field stages event a hok v hv hl => ?_, fun rs hok => ⟨fun t ht hl => ?_, ?_⟩⟩
  · have hheld := Chain.held_of_later hok hv hl
    refine ⟨hheld, fun w hw => ?_⟩
    obtain ⟨y, hy⟩ := hok v hv
    rw [Visit.window?, hy, hheld] at hw
    cases y with
    | none => cases hw
    | some y => exact (Option.some.inj hw).symm
  · exact (later_turnsAll env rs s hok ht hl).2
  · rintro front back rfl first hfirst
    have hstages : (afterAll env front s).engine.stages = s.engine.stages := sameStages_afterAll env front s
    have hfinish : ∀ t ∈ turns env .finish (afterAll env front s), t.Succeeds := by
      intro t ht
      rw [turnsAll_append, turnsAll] at hok
      exact hok t (List.mem_append_right _ (List.mem_append_left _ ht))
    rcases flushTurns_cases env _ hfinish with ⟨hnone, -⟩ | ⟨first', hfirst', hflushed⟩
    · rw [hstages, hfirst] at hnone
      cases hnone
    · rw [hstages, hfirst] at hfirst'
      cases hfirst'
      exact hflushed

/-- Two stages that wait for two values each. -/
def twoWindows : Session MemorySource MemorySink :=
  ofMemory [.aggregate ⟨some 2, none⟩ (fun held => .ok (.array held)) none,
    .aggregate ⟨some 2, none⟩ (fun held => .ok (.array held)) none] 8

example : (turnsAll unheard threeEvents twoWindows).map (fun t => (t.index, t.held.length, t.window?.map List.length)) =
    [(0, 0, none), (0, 1, some 2), (1, 0, none), (0, 1, some 2), (1, 0, none), (0, 1, some 1), (1, 0, none)] := by
  decide +kernel

/-- The second of two stages that wait for two values each only hands its values to the first. -/
theorem later_stages_build_no_window_pair :
    ∀ t ∈ turnsAll unheard threeEvents twoWindows, t.index = 1 → t.window? = none := by
  have hok : ∀ t ∈ turnsAll unheard threeEvents twoWindows, t.Succeeds := by
    have hall : (turnsAll unheard threeEvents twoWindows).all (fun t => t.result.isOk) = true := by decide +kernel
    intro t ht
    have h := List.all_eq_true.1 hall t ht
    cases hr : t.result with
    | error f =>
      rw [hr] at h
      cases h
    | ok y => exact ⟨y, hr⟩
  intro t ht hi
  have hrun := (later_stages_build_no_window unheard twoWindows).2 threeEvents hok
  have hlater : Chain.firstAggregate? twoWindows.engine.stages ≠ some t.index := by
    rw [hi]
    decide
  refine hrun.1 t ht hlater 2 (fun held => .ok (.array held)) none le_rfl ?_
  rw [hi]
  rfl

end Engine

end EventPipeline
