import EventPipeline.Proofs.Engine.Frame
import EventPipeline.Proofs.Pipeline.Spilling
import EventPipeline.Proofs.Pipeline.Visits

/-!
# Items handled in one go

The consumer handles an item in pieces, which lead from one write to the next. `settle` makes all
pieces that are left, and `finish` handles the end of the stream like `process` handles an event: from
beginning to end. The second half of the module follows what an item does to the held and the spilled
values: everything after the chain has run only sheds values (`leads_afterChain`), and a flush of a
stage empties the buffer or leaves it alone (`store_flushStage`).
-/

namespace EventPipeline

namespace Engine

variable {σ κ : Type} [Drain κ] (env : Environment σ κ)

/-! ### Whole items -/

/-- Flushes a stage and writes the result, if there is one. -/
def flushOne (s : Nat × Stage) : EngineAction σ κ Unit := do
  match ← flushStage env s with
  | some v => deliver env v
  | none => return ()

/-- Flushes stages, one after the other, and ends the stream. -/
def flushAll : List (Nat × Stage) → EngineAction σ κ Unit
  | [] => finishStream env
  | s :: rest => do
    flushOne env s
    flushAll rest

/-- Handles the end of the stream to the end. -/
def finish : EngineAction σ κ Unit := do
  let stages := (← get).engine.stages
  flushAll env (Chain.aggregateStages stages)

/-- What is left to do about an item after a write, done to the end. -/
def settleAfter : Handling → EngineAction σ κ Unit
  | .event => checkSpill env
  | .flush rest => flushAll env rest

/-- What is left to do about an item, done to the end. -/
def settle : Option DueWrite → EngineAction σ κ Unit
  | none => return ()
  | some (v, next) => do
    deliver env v
    settleAfter env next

/-- A flush up to the next write and all that is left to do is the whole flush. -/
theorem flush_settle (stages : List (Nat × Stage)) : flush env stages >>= settle env = flushAll env stages := by
  induction stages with
  | nil =>
    simp only [flush, flushAll, bind_assoc, pure_bind, settle]
    exact bind_pure_unit
  | cons s rest ih =>
    simp only [flush, flushAll, flushOne, bind_assoc]
    refine bind_congr fun v => ?_
    cases v with
    | none => simpa only [pure_bind] using ih
    | some v => simp only [pure_bind, settle, settleAfter]

/-- The end of the stream, up to the first write and then to the end. -/
theorem beginFlush_settle : beginFlush env >>= settle env = finish env := by
  simp only [beginFlush, finish, bind_assoc, flush_settle]

/-- An event, up to the write and then to the end. -/
theorem beginEvent_settle (event : Value) : beginEvent env event >>= settle env = process env event := by
  simp only [beginEvent, process, bind_assoc]
  refine bind_congr fun s => bind_congr fun outcome => bind_congr fun _ => ?_
  rcases outcome.delivered? with _ | v
  · dsimp only
    split_ifs <;> simp only [bind_assoc, pure_bind, settle]
  · simp only [pure_bind, settle, settleAfter]

/-- Going on after a write, up to the next one and then to the end. -/
theorem resume_settle (next : Handling) : resume env next >>= settle env = settleAfter env next := by
  cases next with
  | event =>
    simp only [resume, settleAfter, bind_assoc, pure_bind, settle]
    exact bind_pure_unit
  | flush rest => exact flush_settle env rest

/-! ### Events -/

/-- What is left to do about an event after the chain has run. -/
def afterChain (event : Value) (outcome : Outcome) : EngineAction σ κ Unit := do
  outcome.errors.forM (report env)
  match outcome.delivered? with
  | some v => deliver env v
  | none =>
    if outcome.filtered then
      count .filtered 1
      signal env (.filtered event)
  checkSpill env

/-- An event runs through the chain, and then comes the rest. -/
theorem process_eq (event : Value) :
    process env event = get >>= fun s =>
      onAccumulator (Chain.run s.engine.settings.timestampField s.engine.stages event) >>= afterChain env event := by
  simp only [process, beginEvent, bind_assoc]
  refine bind_congr fun s => bind_congr fun outcome => bind_congr fun _ => ?_
  rcases outcome.delivered? with _ | v
  · dsimp only
    split_ifs <;> simp only [bind_assoc, pure_bind, bind_pure_unit]
  · simp only [pure_bind]

/-- The chain as it runs in a session. -/
def chainResult (s : Session σ κ) (event : Value) : Outcome × Accumulator :=
  (Chain.run s.engine.settings.timestampField s.engine.stages event).run ⟨s.engine.buffer, s.world.clock⟩

/-- The session after the chain has run. -/
def withHeld (s : Session σ κ) (a : Accumulator) : Session σ κ :=
  { s with engine.buffer := a.buffer, world.clock := a.clock }

theorem perform_process (event : Value) (s : Session σ κ) :
    perform (process env event) s =
      perform (afterChain env event (chainResult s event).1) (withHeld s (chainResult s event).2) := by
  rw [process_eq, perform_bind_ok (perform_get s), perform_bind_ok (perform_onAccumulator _ s)]
  rfl

/-! ### Where items lead -/

section

variable {R : Session σ κ → Session σ κ → Prop} [IsPreorder (Session σ κ) R] (hr : ∀ s t, Aside s t → R s t)
  (hw : ∀ v, Leads R (onSink (Drain.write v) : EngineAction σ κ Unit))
  (hs : ∀ capacity, Leads R (onSpill (Spill.spillIfNeeded capacity) : EngineAction σ κ _))

include hr

include hw in
/-- A write leads where the write of the sink leads. -/
theorem leads_deliver (v : Value) : Leads R (deliver env v) := by
  refine Leads.bind (hw v).lift fun r => ?_
  cases r with
  | error f => exact (leads_report env _).mono hr
  | ok _ => exact Leads.bind ((leads_count _ _).mono hr) fun _ => (leads_signal env _).mono hr

omit [Drain κ] in
include hs in
/-- Cutting the buffer back leads where the spill leads. -/
theorem leads_checkSpill : Leads R (checkSpill env) := by
  refine Leads.bind Leads.get fun s => Leads.bind (hs _).lift fun r => ?_
  rcases r with f | _ | r
  · exact (leads_report env _).mono hr
  · exact Leads.pure _
  · refine Leads.mono hr ?_
    exact Leads.bind (leads_count _ _) fun _ => Leads.bind (leads_count _ _) fun _ =>
      Leads.bind (leads_record _ _ _ _) fun _ => leads_signal env _

include hw hs in
/-- After the chain has run, there are a write and a spill at most. -/
theorem leads_afterChain (event : Value) (outcome : Outcome) : Leads R (afterChain env event outcome) := by
  refine Leads.bind (Leads.forM (fun f => (leads_report env f).mono hr) _) fun _ => ?_
  rcases outcome.delivered? with _ | v
  · dsimp only
    split_ifs
    · refine Leads.bind ((leads_count _ _).mono hr) fun _ => ?_
      exact Leads.bind ((leads_signal env _).mono hr) fun _ => leads_checkSpill env hr hs
    · exact leads_checkSpill env hr hs
  · exact Leads.bind (leads_deliver env hr hw v) fun _ => leads_checkSpill env hr hs

variable (ha : ∀ (α : Type) (action : StateM Accumulator α), Leads R (onAccumulator action : EngineAction σ κ α))

include ha

include hw hs in
theorem leads_process (event : Value) : Leads R (process env event) := by
  rw [process_eq]
  exact Leads.bind Leads.get fun s => Leads.bind (ha _ _) fun outcome => leads_afterChain env hr hw hs event outcome

omit [Drain κ] in
theorem leads_flushStage (x : Nat × Stage) : Leads R (flushStage env x) := by
  obtain ⟨i, stage⟩ := x
  refine Leads.bind Leads.get fun s => ?_
  cases stage with
  | filter => exact Leads.pure _
  | transform => exact Leads.pure _
  | aggregate w reduce source =>
    dsimp only
    split_ifs
    · exact Leads.pure _
    · refine Leads.bind (ha _ _) fun r => ?_
      rcases r with f | result
      · exact Leads.bind ((leads_report env _).mono hr) fun _ => Leads.pure _
      · refine Leads.bind ((leads_record _ _ _ _).mono hr) fun _ => ?_
        rcases result with _ | v
        · exact Leads.pure _
        · cases v <;> exact Leads.pure _

include hw in
theorem leads_flushAll (stages : List (Nat × Stage)) : Leads R (flushAll env stages) := by
  induction stages with
  | nil => exact (leads_finishStream env).mono hr
  | cons x rest ih =>
    refine Leads.bind (Leads.bind (leads_flushStage env hr ha x) fun r => ?_) fun _ => ih
    cases r with
    | none => exact Leads.pure _
    | some v => exact leads_deliver env hr hw v

include hw in
theorem leads_finish : Leads R (finish env) :=
  Leads.bind Leads.get fun _ => leads_flushAll env hr hw ha _

end

/-! ### What becomes of the held and the spilled values -/

/-- The writes of the sink leave the spill files of a directory as they are. -/
def SinkSpares (κ : Type) [Drain κ] (dir : Path) : Prop :=
  ∀ v, Leads (fun a b => Spill.Spares dir a.2.files b.2.files) (Drain.write v : SinkAction κ Unit)

section

variable {dir : Path}

omit [Drain κ] in
theorem Aside.untouched {s t : Session σ κ} (h : Aside s t) : Spill.Untouched dir s.store t.store := by
  rw [h.store_eq]
  exact refl_of (Spill.Untouched dir) _

theorem untouched_onSink (hk : SinkSpares κ dir) (v : Value) :
    Leads (Order.Preimage Session.store (Spill.Untouched dir)) (onSink (Drain.write v) : EngineAction σ κ Unit) := by
  intro s
  rw [perform_onSink]
  cases s.engine.sink with
  | none => exact refl_of (Spill.Untouched dir) _
  | some k => exact ⟨rfl, rfl, rfl, hk v (k, s.world.host)⟩

/-- A write touches nothing but the sink and files of others. -/
theorem untouched_deliver (hk : SinkSpares κ dir) (v : Value) :
    Leads (Order.Preimage Session.store (Spill.Untouched dir)) (deliver env v) :=
  leads_deliver env (fun _ _ => Aside.untouched) (untouched_onSink hk) v

/-- After the chain has run, values are shed only. -/
theorem shed_afterChain (hk : SinkSpares κ dir) (event : Value) (outcome : Outcome) :
    Leads (Order.Preimage Session.store (Spill.Shed dir)) (afterChain env event outcome) :=
  leads_afterChain env (fun _ _ h => h.untouched.shed) (fun v => (untouched_onSink hk v).mono fun _ _ h => h.shed)
    (fun _ => leads_onSpill (Spill.leads_spillIfNeeded dir _)) event outcome

end

/-! ### The end of the stream -/

/-- The window that a flush of a stage reduces, if it does. -/
def flushed? (s : Session σ κ) : Nat × Stage → Option (List Value)
  | (_, .aggregate _ reduce _) =>
    if s.engine.buffer = [] then none
    else
      match reduce s.engine.buffer with
      | .ok _ => some s.engine.buffer
      | .error _ => none
  | _ => none

omit [Drain κ] in
theorem flushed?_eq {s : Session σ κ} {x : Nat × Stage} {w : List Value} (h : flushed? s x = some w) :
    w = s.engine.buffer := by
  obtain ⟨i, stage⟩ := x
  cases stage with
  | filter => cases h
  | transform => cases h
  | aggregate _ reduce _ =>
    rw [flushed?] at h
    split_ifs at h
    split at h
    · exact (Option.some.inj h).symm
    · cases h

omit [Drain κ] in
/-- **A flush of a stage empties the buffer if the reducer takes it**, and else leaves it alone. -/
theorem store_flushStage (x : Nat × Stage) (s : Session σ κ) :
    (perform (flushStage env x) s).2.store =
      if (flushed? s x).isSome then { s.store with buffer := [] } else s.store := by
  obtain ⟨i, stage⟩ := x
  rw [flushStage, perform_bind_ok (perform_get s)]
  cases stage with
  | filter => rfl
  | transform => rfl
  | aggregate w reduce source =>
    by_cases hb : s.engine.buffer = []
    · simp [flushed?, hb]
    · have hl : s.engine.buffer.length ≠ 0 := by simpa using hb
      simp only [hl, if_false, flushed?, hb]
      rw [perform_bind_ok (perform_onAccumulator _ s)]
      have hf : (Accumulator.flush reduce).run.run ⟨s.engine.buffer, s.world.clock⟩ =
          perform (Accumulator.flush reduce) ⟨s.engine.buffer, s.world.clock⟩ := rfl
      rw [hf, Accumulator.perform_flush, if_neg hb]
      cases hr : reduce s.engine.buffer with
      | error f =>
        refine Aside.store_eq ?_
        exact Leads.bind (leads_report env _) (fun _ => Leads.pure _) s
      | ok r =>
        refine (Aside.store_eq (s := withHeld s ⟨[], s.world.clock⟩) ?_).trans rfl
        refine Leads.bind (leads_record _ _ _ _) (fun _ => ?_) _
        cases r <;> exact Leads.pure _

/-! ### Reloading -/

omit [Drain κ] in
/-- After a reload nothing is left to do but to report it. -/
theorem store_reload (s : Session σ κ) : (perform (reload env) s).2.store = (perform Spill.reload s.store).2 := by
  rw [reload, attempt, perform_bind_ok (perform_lift _ s), perform_onSpill]
  refine (Aside.store_eq (s := withStore s (perform Spill.reload s.store).2) ?_).trans (store_withStore s _)
  rcases (perform Spill.reload s.store).1 with f | _ | r
  · exact Leads.bind (leads_report env f) (fun _ => Leads.pure _) _
  · exact refl_of Aside _
  · exact Leads.bind (leads_count _ _) (fun _ => Leads.bind (leads_record _ _ _ _) fun _ => Leads.pure _) _

end Engine

end EventPipeline
