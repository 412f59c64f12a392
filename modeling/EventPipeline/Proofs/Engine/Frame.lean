import EventPipeline.Engine.Processing
import EventPipeline.Proofs.Connector.Sinks
import Mathlib.Order.RelClasses

/-!
# What steps of an engine leave alone

Logging, counting and telling the subscribers touch the log, the latest failure, the notices and the
printed texts only, and take back no notice (`Aside`), whatever the subscribers do about it. Steps on
the held values, on the spilled values and on the sink are steps on parts of the session, and what is
known of them there is known of the session.
-/

namespace EventPipeline

variable {σ κ α : Type}

/-- The part of a session that spilling acts on. -/
def Session.store (s : Session σ κ) : SpillState :=
  ⟨s.engine.buffer, s.engine.spill, s.world.host.files, s.world.nextName⟩

/-- The parts of a session that the handling of items depends on. -/
structure Core (κ : Type) where
  /-- The stages. -/
  stages : List Stage
  /-- The settings. -/
  settings : Settings
  /-- The definition of the pipeline. -/
  definition : Definition
  /-- The sink. -/
  sink : Option κ
  /-- The clock of the aggregate stages. -/
  clock : Clock
  /-- The part that spilling acts on. -/
  store : SpillState

/-- The parts of a session that the handling of items depends on. -/
def Session.core (s : Session σ κ) : Core κ :=
  ⟨s.engine.stages, s.engine.settings, s.world.definition, s.engine.sink, s.world.clock, s.store⟩

namespace Engine

/-! ### Log and notices -/

/-- The second session differs from the first one in what is logged, told and printed only. -/
def Aside (s t : Session σ κ) : Prop :=
  ∃ log lastError ended told out err,
    t = ⟨{ s.engine with log := log, lastError := lastError, ended := ended },
      { s.world with notices := s.world.notices ++ told, host := { s.world.host with out := out, err := err } }⟩

/-- Changes of the log alone are aside. -/
theorem aside_log (s : Session σ κ) (log : RunLog) (lastError : Option Failure) (ended : Option Bool) :
    Aside s { s with engine := { s.engine with log := log, lastError := lastError, ended := ended } } :=
  ⟨log, lastError, ended, [], s.world.host.out, s.world.host.err, by rw [List.append_nil]⟩

instance : IsPreorder (Session σ κ) Aside where
  refl s := aside_log s s.engine.log s.engine.lastError s.engine.ended
  trans s t u := by
    rintro ⟨_, _, _, told, _, _, rfl⟩ ⟨log, lastError, ended, told', out, err, rfl⟩
    exact ⟨log, lastError, ended, told ++ told', out, err, by rw [← List.append_assoc]⟩

theorem Aside.core_eq {s t : Session σ κ} (h : Aside s t) : t.core = s.core := by
  obtain ⟨_, _, _, _, _, _, rfl⟩ := h
  rfl

theorem Aside.store_eq {s t : Session σ κ} (h : Aside s t) : t.store = s.store := congrArg Core.store h.core_eq

theorem leads_record (stage level message : Text) (extra : Fields) :
    Leads Aside (record stage level message extra : EngineAction σ κ Unit) :=
  Leads.modify fun s => aside_log s _ _ _

/-- An entry in the log is always made. -/
theorem perform_record (stage level message : Text) (extra : Fields) (s : Session σ κ) :
    ∃ t, perform (record stage level message extra) s = (.ok (), t) ∧ Aside s t :=
  ⟨_, rfl, leads_record stage level message extra s⟩

theorem leads_count (c : RunLog.Counter) (amount : Nat) : Leads Aside (count c amount : EngineAction σ κ Unit) :=
  Leads.modify fun s => aside_log s _ _ _

variable (env : Environment σ κ)

theorem leads_tell (n : Notice) : Leads Aside (tell env n) := by
  apply Leads.get_bind
  intro s
  rw [perform_bind_ok (perform_set _ _)]
  cases (env.subscriber s.world.notices n).failure <;> exact ⟨_, _, _, _, _, _, rfl⟩

theorem leads_signal (s : EngineSignal) : Leads Aside (signal env s) := leads_tell env _

/-- A report touches nothing else, also when a subscriber fails on it. -/
theorem leads_report (f : Failure) : Leads Aside (report env f) :=
  Leads.bind (Leads.modify fun s => aside_log s _ _ _) fun _ =>
    Leads.bind (leads_count _ _) fun _ => Leads.bind (leads_record _ _ _ _) fun _ => leads_signal env _

theorem leads_finishStream : Leads Aside (finishStream env) :=
  Leads.bind (Leads.modify fun s => aside_log s _ _ _) fun _ => leads_signal env _

/-! ### Steps on parts -/

/-- What comes of a step on the held values. -/
theorem perform_onAccumulator (action : StateM Accumulator α) (s : Session σ κ) :
    perform (onAccumulator action) s =
      (.ok (action.run ⟨s.engine.buffer, s.world.clock⟩).1,
        { s with
          engine.buffer := (action.run ⟨s.engine.buffer, s.world.clock⟩).2.buffer
          world.clock := (action.run ⟨s.engine.buffer, s.world.clock⟩).2.clock }) := rfl

/-- The session with another store. -/
def withStore (s : Session σ κ) (t : SpillState) : Session σ κ :=
  { s with
    engine.buffer := t.buffer, engine.spill := t.spill
    world.host.files := t.files, world.nextName := t.nextName }

@[simp] theorem store_withStore (s : Session σ κ) (t : SpillState) : (withStore s t).store = t := rfl

/-- What comes of a step on the buffer and its spilled values. -/
theorem perform_onSpill (action : Spilling α) (s : Session σ κ) :
    perform (onSpill action) s = ((perform action s.store).1, withStore s (perform action s.store).2) := by
  unfold onSpill
  rw [perform_bind_ok (perform_get s)]
  rcases h : perform action s.store with ⟨_ | _, t⟩
  all_goals
    unfold perform Session.store at h
    simp only [h]
    rfl

theorem leads_onSpill {R : SpillState → SpillState → Prop} {action : Spilling α} (h : Leads R action) :
    Leads (Order.Preimage Session.store R) (onSpill action : EngineAction σ κ α) := by
  intro s
  rw [perform_onSpill]
  exact h s.store

/-- The session with another sink and other files and printed texts. -/
def withSink (s : Session σ κ) (k : κ) (host : Host) : Session σ κ :=
  { s with engine.sink := some k, world.host := host }

/-- The calls that the sink got. -/
def sinkCalls (s : Session σ (Recorded κ)) : List SinkCall := (s.engine.sink.map Recorded.calls).getD []

/-- What comes of a step on the sink. -/
theorem perform_onSink (action : SinkAction κ α) (s : Session σ κ) :
    perform (onSink action) s =
      match s.engine.sink with
      | none => (.error noSink, s)
      | some k =>
        ((perform action (k, s.world.host)).1,
          withSink s (perform action (k, s.world.host)).2.1 (perform action (k, s.world.host)).2.2) := by
  unfold onSink
  rw [perform_bind_ok (perform_get s)]
  cases hk : s.engine.sink with
  | none => rfl
  | some k =>
    dsimp only
    rcases h : perform action (k, s.world.host) with ⟨_ | _, t⟩
    all_goals
      unfold perform at h
      simp only [h]
      rfl

end Engine

end EventPipeline
