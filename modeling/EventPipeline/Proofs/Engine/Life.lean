import EventPipeline.Engine.Lifecycle
import EventPipeline.Proofs.Engine.Frame

/-!
# Which states an engine goes through

An engine writes every change of its state into its log, so the log tells which states it went through
(`changes`). Apart from the changes that a start and a stop make, nothing that happens in an engine
changes its state, says that it did, or tells the subscribers that it runs (`Still`): not the source, not
the consumer, not the report of a failure, whatever a subscriber does about it. Each piece of a start or
of a stop is still, or it enters one state and is the last piece of its call (`Piece`).
-/

namespace EventPipeline

namespace EngineState

/-- The states that may follow one another. -/
def leadsTo : EngineState → EngineState → Bool
  | idle, initializing | initializing, idle | initializing, running => true
  | initializing, stopping | running, stopping | stopping, stopped => true
  | _, _ => false

/-- A change of state as the log has it. -/
def change (a b : EngineState) : Fields := [("previous", a.name), ("state", b.name)]

end EngineState

variable {σ κ α : Type}

namespace Engine

/-! ### Changes of state -/

/-- The entry of the log is about a change of state. -/
def isChange (e : LogEntry) : Bool := e.level = "info" && e.message = "state changed"

/-- The changes of state in the log, oldest first. -/
def changes (s : Session σ κ) : List Fields := (s.engine.log.entries.filter isChange).map LogEntry.extra

/-- How often the subscribers have been told that the engine runs. -/
def timesStarted (s : Session σ κ) : Nat := s.world.notices.count (.engine .started)

/-- The state is the same, and there is no word of a change. -/
structure Kept (s t : Session σ κ) : Prop where
  /-- The state is the same. -/
  state : t.engine.state = s.engine.state
  /-- The log has the same changes. -/
  changes : changes t = Engine.changes s

/-- The state is the same, and there is no word of a change or of a start. -/
structure Still (s t : Session σ κ) : Prop extends Kept s t where
  /-- Nobody was told that the engine runs. -/
  started : timesStarted t = timesStarted s

/-- The engine has entered a state and says so in the log. -/
structure Enters (b : EngineState) (s t : Session σ κ) : Prop where
  /-- The engine is in the state. -/
  state : t.engine.state = b
  /-- The change is in the log. -/
  changes : changes t = Engine.changes s ++ [s.engine.state.change b]

instance : IsPreorder (Session σ κ) Kept where
  refl _ := ⟨rfl, rfl⟩
  trans _ _ _ h h' := ⟨h'.state.trans h.state, h'.changes.trans h.changes⟩

instance : IsPreorder (Session σ κ) Still where
  refl _ := ⟨⟨rfl, rfl⟩, rfl⟩
  trans _ _ _ h h' := ⟨trans_of Kept h.toKept h'.toKept, h'.started.trans h.started⟩

theorem Enters.of_still {b : EngineState} {s t u : Session σ κ} (h : Still s t) (h' : Enters b t u) :
    Enters b s u :=
  ⟨h'.state, by rw [h'.changes, h.changes, h.state]⟩

theorem Enters.kept {b : EngineState} {s t u : Session σ κ} (h : Enters b s t) (h' : Kept t u) : Enters b s u :=
  ⟨h'.state.trans h.state, h'.changes.trans h.changes⟩

theorem enters_enter (b : EngineState) (s : Session σ κ) : Enters b s (perform (enter b) s).2 := by
  refine ⟨rfl, ?_⟩
  show ((s.engine.log.entries ++ [_]).filter isChange).map LogEntry.extra = _
  rw [List.filter_append, List.map_append]
  rfl

/-! ### Log and notices -/

theorem isChange_of_level {stage level message : Text} {extra : Fields} (h : level ≠ "info") :
    isChange ⟨stage, level, message, extra⟩ = false := by
  simp [isChange, h]

theorem isChange_of_message {stage level message : Text} {extra : Fields} (h : message ≠ "state changed") :
    isChange ⟨stage, level, message, extra⟩ = false := by
  simp [isChange, h]

theorem still_record {stage level message : Text} {extra : Fields}
    (h : isChange ⟨stage, level, message, extra⟩ = false) :
    Leads Still (record stage level message extra : EngineAction σ κ Unit) := by
  refine Leads.modify fun s => ⟨⟨rfl, ?_⟩, rfl⟩
  show ((s.engine.log.entries ++ [_]).filter isChange).map LogEntry.extra = _
  rw [List.filter_append, List.filter_cons_of_neg (by rw [h]; exact Bool.false_ne_true), List.filter_nil,
    List.append_nil]
  rfl

theorem still_change {f : Engine σ κ → Engine σ κ}
    (h : ∀ e, (f e).state = e.state ∧ (f e).log.entries = e.log.entries) : Leads Still (change f) := by
  refine Leads.modify fun s => ⟨⟨(h s.engine).1, ?_⟩, rfl⟩
  show ((f s.engine).log.entries.filter isChange).map LogEntry.extra = _
  rw [(h s.engine).2]
  rfl

theorem still_count (c : RunLog.Counter) (amount : Nat) : Leads Still (count c amount : EngineAction σ κ Unit) :=
  still_change fun _ => ⟨rfl, rfl⟩

theorem still_attempt {a : EngineAction σ κ α} (h : Leads Still a) : Leads Still (attempt a) := Leads.lift h

variable (env : Environment σ κ)

theorem kept_tell (n : Notice) : Leads Kept (tell env n) := by
  apply Leads.get_bind
  intro s
  rw [perform_bind_ok (perform_set _ _)]
  cases (env.subscriber s.world.notices n).failure <;> exact ⟨rfl, rfl⟩

theorem still_tell {n : Notice} (h : n ≠ .engine .started) : Leads Still (tell env n) := by
  intro s
  refine ⟨kept_tell env n s, ?_⟩
  rw [tell, perform_bind_ok (perform_get s), perform_bind_ok (perform_set _ _)]
  cases (env.subscriber s.world.notices n).failure <;>
    exact (List.count_append).trans (by rw [List.count_singleton, if_neg (by simpa using h)]; rfl)

theorem still_signal {sig : EngineSignal} (h : sig ≠ .started) : Leads Still (signal env sig) :=
  still_tell env fun he => h (Notice.engine.inj he)

theorem still_report (f : Failure) : Leads Still (report env f) :=
  Leads.bind (still_change fun _ => ⟨rfl, rfl⟩) fun _ =>
    Leads.bind (still_count _ _) fun _ =>
      Leads.bind (still_record (isChange_of_level (by decide))) fun _ => still_signal env (by simp)

/-! ### Steps on parts -/

theorem still_onAccumulator (action : StateM Accumulator α) :
    Leads Still (onAccumulator action : EngineAction σ κ α) := fun _ => ⟨⟨rfl, rfl⟩, rfl⟩

theorem still_onSpill (action : Spilling α) : Leads Still (onSpill action : EngineAction σ κ α) := by
  intro s
  rw [perform_onSpill]
  exact ⟨⟨rfl, rfl⟩, rfl⟩

theorem still_onSink (action : SinkAction κ α) : Leads Still (onSink action : EngineAction σ κ α) := by
  intro s
  rw [perform_onSink]
  cases s.engine.sink with
  | none => exact refl_of Still s
  | some k => exact ⟨⟨rfl, rfl⟩, rfl⟩

theorem still_onSource (step : Source σ → Except Failure α × Source σ) (otherwise : α) :
    Leads Still (onSource step otherwise : EngineAction σ κ α) := by
  refine Leads.bind Leads.get fun s => ?_
  cases s.engine.source with
  | none => exact Leads.pure _
  | some source =>
    refine Leads.bind (still_change fun _ => ⟨rfl, rfl⟩) fun _ => ?_
    cases (step source).1 with
    | ok a => exact Leads.pure _
    | error f => exact Leads.throw _

/-! ### The consumer and the source -/

theorem still_deliver [Drain κ] (v : Value) : Leads Still (deliver env v) := by
  refine Leads.bind (still_attempt (still_onSink _)) fun r => ?_
  cases r with
  | error f => exact still_report env _
  | ok _ => exact Leads.bind (still_count _ _) fun _ => still_signal env (by simp)

theorem still_checkSpill : Leads Still (checkSpill env) := by
  refine Leads.bind Leads.get fun s => Leads.bind (still_attempt (still_onSpill _)) fun r => ?_
  rcases r with f | _ | r
  · exact still_report env _
  · exact Leads.pure _
  · exact Leads.bind (still_count _ _) fun _ => Leads.bind (still_count _ _) fun _ =>
      Leads.bind (still_record (isChange_of_message (by decide))) fun _ => still_signal env (by simp)

theorem still_beginEvent (v : Value) : Leads Still (beginEvent env v) := by
  refine Leads.bind Leads.get fun s => Leads.bind (still_onAccumulator _) fun outcome => ?_
  refine Leads.bind (Leads.forM (still_report env) _) fun _ => ?_
  cases outcome.delivered? with
  | some v => exact Leads.pure _
  | none =>
    have hrest : Leads Still (do checkSpill env; return none : EngineAction σ κ (Option DueWrite)) :=
      Leads.bind (still_checkSpill env) fun _ => Leads.pure _
    dsimp only
    split
    · exact Leads.bind (still_count _ _) fun _ => Leads.bind (still_signal env (by simp)) fun _ => hrest
    · exact hrest

theorem still_flushStage (s : Nat × Stage) : Leads Still (flushStage env s) := by
  obtain ⟨index, stage⟩ := s
  refine Leads.bind Leads.get fun t => ?_
  cases stage with
  | aggregate window reduce name =>
    dsimp only
    split
    · exact Leads.pure _
    · refine Leads.bind (still_onAccumulator _) fun r => ?_
      cases r with
      | error f => exact Leads.bind (still_report env _) fun _ => Leads.pure _
      | ok result =>
        refine Leads.bind (still_record (isChange_of_message (by decide))) fun _ => ?_
        split
        · exact Leads.pure _
        · exact Leads.pure _
  | _ => exact Leads.pure _

theorem still_flush (stages : List (Nat × Stage)) : Leads Still (flush env stages) := by
  induction stages with
  | nil =>
    exact Leads.bind (Leads.bind (still_change fun _ => ⟨rfl, rfl⟩) fun _ => still_signal env (by simp))
      fun _ => Leads.pure _
  | cons s rest ih =>
    refine Leads.bind (still_flushStage env s) fun r => ?_
    cases r with
    | some v => exact Leads.pure _
    | none => exact ih

theorem still_handle {a : EngineAction σ κ (Option DueWrite)} (h : Leads Still a) : Leads Still (handle env a) := by
  have hfinish : ∀ next, Leads Still (finishItem next : EngineAction σ κ Unit) :=
    fun next => still_change fun _ => ⟨rfl, rfl⟩
  refine Leads.bind (still_attempt h) fun r => ?_
  rcases r with f | _ | due
  · refine Leads.bind (still_attempt (still_report env f)) fun r => ?_
    cases r with
    | ok _ => exact hfinish _
    | error g => exact hfinish _
  · exact hfinish _
  · exact still_change fun _ => ⟨rfl, rfl⟩

/-- **A step of the consumer is still.** -/
theorem still_consume [Drain κ] : Leads Still (consume env) := by
  refine Leads.bind Leads.get fun s => ?_
  cases s.engine.consumer with
  | waiting =>
    refine Leads.bind Leads.get fun t => ?_
    split
    · refine Leads.bind (still_change fun _ => ⟨rfl, rfl⟩) fun _ => ?_
      split
      · exact still_handle env (still_beginEvent env _)
      · exact still_handle env (Leads.bind Leads.get fun _ => still_flush env _)
      · exact still_change fun _ => ⟨rfl, rfl⟩
    · exact Leads.pure _
  | writing v next =>
    refine still_handle env (Leads.bind (still_deliver env v) fun _ => ?_)
    cases next with
    | event => exact Leads.bind (still_checkSpill env) fun _ => Leads.pure _
    | flush rest => exact still_flush env rest
  | _ => exact Leads.pure _

theorem still_hear (sent : SourceSignal) : Leads Still (hear env sent) := by
  cases sent with
  | data v =>
    refine Leads.bind Leads.get fun s => ?_
    split
    · exact Leads.bind (still_count _ _) fun _ => still_change fun _ => ⟨rfl, rfl⟩
    · exact Leads.pure _
  | finished => exact still_change fun _ => ⟨rfl, rfl⟩
  | error f => exact still_report env f

/-! ### Parts of a start and of a stop -/

theorem still_makeConnectors : Leads Still (makeConnectors env) := by
  have hlift : ∀ {α : Type} (r : Except Failure α),
      Leads Still (makeConnectors.liftExcept r : EngineAction σ κ α) := by
    intro α r
    cases r with
    | ok a => exact Leads.pure _
    | error f => exact Leads.throw _
  refine Leads.bind Leads.get fun s => ?_
  dsimp only
  split
  · exact Leads.throw _
  · exact Leads.throw _
  · refine Leads.bind (hlift _) fun feed => Leads.bind (still_change fun _ => ⟨rfl, rfl⟩) fun _ => ?_
    refine Leads.bind (hlift _) fun drain => Leads.bind (still_change fun _ => ⟨rfl, rfl⟩) fun _ => ?_
    exact still_record (isChange_of_message (by decide))

theorem still_closeSink [Drain κ] : Leads Still (closeSink env) := by
  refine Leads.bind (still_attempt (still_onSink _)) fun r => ?_
  cases r with
  | ok _ => exact Leads.pure _
  | error f => exact still_report env _

theorem still_discardSpill : Leads Still (discardSpill env) := by
  refine Leads.bind Leads.get fun s => Leads.bind (still_onSpill _) fun failures => ?_
  refine Leads.bind (Leads.forM (still_report env) _) fun _ => ?_
  unfold logDiscarded
  split
  · exact Leads.pure _
  · exact Leads.bind (still_change fun _ => ⟨rfl, rfl⟩) fun _ =>
      still_record (isChange_of_level (by decide))

end Engine

end EventPipeline
