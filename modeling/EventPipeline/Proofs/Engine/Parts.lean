import EventPipeline.Proofs.Engine.Accounting

/-!
# What engines are put together from

All that an engine does is put together from a few kinds of small steps: to look at the session, to change the
engine, to tell the subscribers something, to call the sink, to run the chain, to flush a reducer, and to spill, reload
and discard. A property of steps that these have and that goes from two steps to both in a row (`Compositional`) is
therefore one of every act (`Compositional.run`), whatever it says.

Only one small step looks at the capacity of the definition: the one that cuts the buffer back (`trim`).
-/

namespace EventPipeline

variable {σ κ α : Type}

/-- The session with another capacity in its definition. -/
def Session.withCapacity (n : Nat) (s : Session σ κ) : Session σ κ := { s with world.definition.capacity := n }

namespace Engine

/-- The change leaves alone the stages and what is held back. -/
def Harmless (f : Engine σ κ → Engine σ κ) : Prop :=
  ∀ e, (f e).stages = e.stages ∧ (f e).buffer = e.buffer ∧ (f e).spill = e.spill

/-- Runs an event through the chain of the engine. -/
def runChain (v : Value) : EngineAction σ κ Outcome := do
  let s ← get
  onAccumulator (Chain.run s.engine.settings.timestampField s.engine.stages v)

/-- Cuts the buffer back to the capacity of the definition. -/
def trim : EngineAction σ κ (Except Failure (Option SpillRecord)) := do
  let s ← get
  attempt (onSpill (Spill.spillIfNeeded s.world.definition.capacity))

/-- A property of steps that all small steps have, and two steps in a row if both have it. -/
structure Compositional [Drain κ] (env : Environment σ κ) (P : {α : Type} → EngineAction σ κ α → Prop) : Prop where
  /-- To do nothing. -/
  pure : ∀ {α : Type} (x : α), P (pure x)
  /-- To fail. -/
  throw : ∀ {α : Type} (f : Failure), P (throw f : EngineAction σ κ α)
  /-- Two steps in a row. -/
  bind : ∀ {α β : Type} {a : EngineAction σ κ α} {k : α → EngineAction σ κ β}, P a → (∀ x, P (k x)) → P (a >>= k)
  /-- To give a failure instead of failing. -/
  attempt : ∀ {α : Type} {a : EngineAction σ κ α}, P a → P (attempt a)
  /-- To look at anything but the capacity. -/
  look : ∀ {α : Type} {k : Session σ κ → EngineAction σ κ α}, (∀ n s, k (s.withCapacity n) = k s) → (∀ s, P (k s)) →
    P (get >>= k)
  /-- To change the engine. -/
  change : ∀ {f : Engine σ κ → Engine σ κ}, Harmless f → P (change f)
  /-- To tell the subscribers something. -/
  signal : ∀ s, P (signal env s)
  /-- To write a value to the sink. -/
  write : ∀ v, P (onSink (Drain.write v))
  /-- To close the sink. -/
  close : P (onSink Drain.close)
  /-- To run an event through the chain. -/
  runChain : ∀ v, P (runChain v)
  /-- To flush a reducer. -/
  flush : ∀ reduce, P (onAccumulator (Accumulator.flush reduce).run)
  /-- To cut the buffer back. -/
  trim : P trim
  /-- To put spilled values back. -/
  reload : P (onSpill Spill.reload)
  /-- To remove spilled values. -/
  discard : P (onSpill (ExceptT.lift Spill.discardAll))

namespace Compositional

variable [Drain κ] {env : Environment σ κ} {P : {α : Type} → EngineAction σ κ α → Prop} (h : Compositional env P)

include h

/-! ### Log and notices -/

theorem record (stage level message : Text) (extra : Fields) : P (Engine.record stage level message extra) :=
  h.change fun _ => ⟨rfl, rfl, rfl⟩

theorem count (c : RunLog.Counter) (amount : Nat) : P (Engine.count c amount) :=
  h.change fun _ => ⟨rfl, rfl, rfl⟩

theorem enter (state : EngineState) : P (Engine.enter state) := by
  refine h.look (fun _ _ => rfl) fun s => ?_
  refine h.bind (h.change fun _ => ⟨rfl, rfl, rfl⟩) fun _ => ?_
  exact h.record _ _ _ _

theorem report (f : Failure) : P (Engine.report env f) := by
  refine h.bind (h.change fun _ => ⟨rfl, rfl, rfl⟩) fun _ => ?_
  refine h.bind (h.count _ _) fun _ => ?_
  refine h.bind (h.record _ _ _ _) fun _ => ?_
  exact h.signal _

theorem forM {f : α → EngineAction σ κ PUnit} (hf : ∀ x, P (f x)) (xs : List α) : P (xs.forM f) := by
  induction xs with
  | nil => exact h.pure _
  | cons x xs ih => exact h.bind (hf x) fun _ => ih

/-! ### Items -/

theorem deliver (v : Value) : P (Engine.deliver env v) := by
  refine h.bind (h.attempt (h.write v)) fun r => ?_
  cases r with
  | error f => exact h.report _
  | ok _ => exact h.bind (h.count _ _) fun _ => h.signal _

/-- To cut the buffer back, and to go on. -/
theorem trim_bind {k : Except Failure (Option SpillRecord) → EngineAction σ κ α} (hk : ∀ r, P (k r)) :
    P (get >>= fun s => Engine.attempt (onSpill (Spill.spillIfNeeded s.world.definition.capacity)) >>= k) := by
  have htrim := h.bind h.trim hk
  rwa [Engine.trim, bind_assoc] at htrim

/-- To run an event through the chain, and to go on. -/
theorem runChain_bind (v : Value) {k : Outcome → EngineAction σ κ α} (hk : ∀ outcome, P (k outcome)) :
    P (get >>= fun s =>
      onAccumulator (Chain.run s.engine.settings.timestampField s.engine.stages v) >>= k) := by
  have hchain := h.bind (h.runChain v) hk
  rwa [Engine.runChain, bind_assoc] at hchain

theorem checkSpill : P (Engine.checkSpill env) := by
  refine h.trim_bind fun r => ?_
  rcases r with f | _ | r
  · exact h.report f
  · exact h.pure _
  · refine h.bind (h.count _ _) fun _ => h.bind (h.count _ _) fun _ => ?_
    exact h.bind (h.record _ _ _ _) fun _ => h.signal _

theorem beginEvent (v : Value) : P (Engine.beginEvent env v) := by
  refine h.runChain_bind v fun outcome => h.bind (h.forM h.report _) fun _ => ?_
  have hrest : P (do Engine.checkSpill env; return none : EngineAction σ κ (Option DueWrite)) :=
    h.bind h.checkSpill fun _ => h.pure _
  cases outcome.delivered? with
  | some v => exact h.pure _
  | none =>
    dsimp only
    split
    · exact h.bind (h.count _ _) fun _ => h.bind (h.signal _) fun _ => hrest
    · exact hrest

theorem process (v : Value) : P (Engine.process env v) := by
  refine h.bind (h.beginEvent v) fun due => ?_
  cases due with
  | none => exact h.pure _
  | some due => exact h.bind (h.deliver _) fun _ => h.checkSpill

theorem flushStage (x : Nat × Stage) : P (Engine.flushStage env x) := by
  obtain ⟨index, stage⟩ := x
  refine h.look (fun _ _ => rfl) fun s => ?_
  cases stage with
  | aggregate window reduce name =>
    dsimp only
    split
    · exact h.pure _
    · refine h.bind (h.flush reduce) fun r => ?_
      cases r with
      | error f => exact h.bind (h.report _) fun _ => h.pure _
      | ok result =>
        refine h.bind (h.record _ _ _ _) fun _ => ?_
        split
        · exact h.pure _
        · exact h.pure _
  | _ => exact h.pure _

theorem flushStages (stages : List (Nat × Stage)) : P (Engine.flush env stages) := by
  induction stages with
  | nil =>
    have hend : P (finishStream env) := h.bind (h.change fun _ => ⟨rfl, rfl, rfl⟩) fun _ => h.signal _
    exact h.bind hend fun _ => h.pure _
  | cons x rest ih =>
    refine h.bind (h.flushStage x) fun r => ?_
    cases r with
    | some v => exact h.pure _
    | none => exact ih

theorem resume (next : Handling) : P (Engine.resume env next) := by
  cases next with
  | event => exact h.bind h.checkSpill fun _ => h.pure _
  | flush rest => exact h.flushStages rest

/-! ### The consumer and the source -/

theorem finishItem (next : Consumer) : P (Engine.finishItem next) :=
  h.change fun _ => ⟨rfl, rfl, rfl⟩

theorem handle {a : EngineAction σ κ (Option DueWrite)} (ha : P a) : P (Engine.handle env a) := by
  refine h.bind (h.attempt ha) fun r => ?_
  rcases r with f | _ | due
  · refine h.bind (h.attempt (h.report f)) fun r => ?_
    cases r with
    | ok _ => exact h.finishItem _
    | error g => exact h.finishItem _
  · exact h.finishItem _
  · exact h.change fun _ => ⟨rfl, rfl, rfl⟩

theorem take : P (Engine.take env) := by
  refine h.look (fun _ _ => rfl) fun s => ?_
  split
  · refine h.bind (h.change fun _ => ⟨rfl, rfl, rfl⟩) fun _ => ?_
    split
    · exact h.handle (h.beginEvent _)
    · exact h.handle (h.look (fun _ _ => rfl) fun _ => h.flushStages _)
    · exact h.finishItem _
  · exact h.pure _

theorem consume : P (Engine.consume env) := by
  refine h.look (fun _ _ => rfl) fun s => ?_
  cases s.engine.consumer with
  | waiting => exact h.take
  | writing v next => exact h.handle (h.bind (h.deliver v) fun _ => h.resume next)
  | _ => exact h.pure _

theorem put (item : QueueItem) : P (Engine.put item) := h.change fun _ => ⟨rfl, rfl, rfl⟩

theorem hear (sent : SourceSignal) : P (Engine.hear env sent) := by
  cases sent with
  | data v =>
    refine h.look (fun _ _ => rfl) fun s => ?_
    split
    · exact h.bind (h.count _ _) fun _ => h.put _
    · exact h.pure _
  | finished => exact h.put _
  | error f => exact h.report f

theorem sourceStep (f : Source σ → Source σ) (sent : Option SourceSignal) : P (Engine.sourceStep env f sent) := by
  refine h.bind (h.change fun _ => ⟨rfl, rfl, rfl⟩) fun _ => ?_
  cases sent with
  | none => exact h.pure _
  | some sent => exact h.hear sent

theorem onSource (step : Source σ → Except Failure α × Source σ) (otherwise : α) :
    P (Engine.onSource step otherwise) := by
  refine h.look (fun _ _ => rfl) fun s => ?_
  cases s.engine.source with
  | none => exact h.pure _
  | some source =>
    refine h.bind (h.change fun _ => ⟨rfl, rfl, rfl⟩) fun _ => ?_
    cases (step source).1 with
    | ok a => exact h.pure _
    | error f => exact h.throw _

theorem reloadOnce : P (Engine.reload env) := by
  refine h.bind (h.attempt h.reload) fun r => ?_
  rcases r with f | _ | r
  · exact h.bind (h.report f) fun _ => h.pure _
  · exact h.pure _
  · exact h.bind (h.count _ _) fun _ => h.bind (h.record _ _ _ _) fun _ => h.pure _

/-! ### Starts -/

theorem makeConnectors : P (Engine.makeConnectors env) := by
  have hlift : ∀ {α : Type} (r : Except Failure α), P (makeConnectors.liftExcept r : EngineAction σ κ α) := by
    intro α r
    cases r with
    | ok a => exact h.pure _
    | error f => exact h.throw _
  refine h.look (fun _ _ => rfl) fun s => ?_
  dsimp only
  split
  · exact h.throw _
  · exact h.throw _
  · refine h.bind (hlift _) fun feed => h.bind (h.change fun _ => ⟨rfl, rfl, rfl⟩) fun _ => ?_
    refine h.bind (hlift _) fun drain => h.bind (h.change fun _ => ⟨rfl, rfl, rfl⟩) fun _ => ?_
    exact h.record _ _ _ _

theorem giveUp (f : Failure) : P (Engine.giveUp env f) := by
  refine h.bind (h.change fun _ => ⟨rfl, rfl, rfl⟩) fun _ => ?_
  exact h.bind (h.report f) fun _ => h.bind (h.enter _) fun _ => h.throw f

theorem abandon (f : Failure) : P (Engine.abandon env f) := by
  refine h.look (fun _ _ => rfl) fun s => ?_
  split
  · exact h.pure _
  · exact h.giveUp f

theorem start : P (Engine.start env) := by
  refine h.look (fun _ _ => rfl) fun s => ?_
  split
  · exact h.pure _
  · refine h.bind (h.enter _) fun _ => h.bind (h.attempt h.makeConnectors) fun r => ?_
    cases r with
    | error f => exact h.abandon f
    | ok _ => exact h.bind (h.change fun _ => ⟨rfl, rfl, rfl⟩) fun _ => h.pure _

theorem startSource [Feed σ] : P (Engine.startSource env) := by
  refine h.bind (h.attempt (h.onSource _ _)) fun r => ?_
  cases r with
  | ok _ => exact h.bind (h.enter _) fun _ => h.bind (h.signal _) fun _ => h.pure _
  | error f =>
    refine h.look (fun _ _ => rfl) fun s => ?_
    cases s.engine.consumer with
    | absent => exact h.abandon _
    | waiting | writing => exact h.bind (h.change fun _ => ⟨rfl, rfl, rfl⟩) fun _ => h.pure _
    | _ => exact h.pure _

theorem leaveConsumer (f : Failure) : P (Engine.leaveConsumer env f) := by
  refine h.look (fun _ _ => rfl) fun s => ?_
  cases s.engine.consumer with
  | broken g => exact h.throw g
  | _ => exact h.abandon f

theorem closeSink : P (Engine.closeSink env) := by
  refine h.bind (h.attempt h.close) fun r => ?_
  cases r with
  | ok _ => exact h.pure _
  | error f => exact h.report _

/-! ### Stops -/

theorem discardSpill : P (Engine.discardSpill env) := by
  refine h.look (fun _ _ => rfl) fun s => h.bind h.discard fun failures => h.bind (h.forM h.report _) fun _ => ?_
  unfold logDiscarded
  split
  · exact h.pure _
  · exact h.bind (h.change fun _ => ⟨rfl, rfl, rfl⟩) fun _ => h.record _ _ _ _

theorem finishStop : P (Engine.finishStop env) :=
  h.bind h.discardSpill fun _ => h.bind (h.enter _) fun _ => h.bind (h.signal _) fun _ => h.pure _

theorem afterConsumer : P (Engine.afterConsumer env) := by
  refine h.look (fun _ _ => rfl) fun s => ?_
  split
  · exact h.pure _
  · exact h.finishStop

theorem afterSource : P (Engine.afterSource env) := by
  refine h.look (fun _ _ => rfl) fun s => ?_
  dsimp only
  split
  · exact h.afterConsumer
  · split
    · exact h.bind (h.put _) fun _ => h.pure _
    · exact h.afterConsumer

theorem stop [Feed σ] : P (Engine.stop env) := by
  refine h.look (fun _ _ => rfl) fun s => ?_
  split
  case h_3 => exact h.pure _
  all_goals
    refine h.bind (h.enter _) fun _ => h.look (fun _ _ => rfl) fun t => ?_
    cases t.engine.source with
    | none => exact h.afterSource
    | some source => exact h.bind (h.change fun _ => ⟨rfl, rfl, rfl⟩) fun _ => h.pure _

theorem stopSource [Feed σ] (announces : Bool) : P (Engine.stopSource env announces) := by
  refine h.bind (h.attempt (h.onSource _ _)) fun r => ?_
  rcases r with f | _ | sent
  · exact h.bind (h.report f) fun _ => h.afterSource
  · exact h.afterSource
  · exact h.bind (h.hear sent) fun _ => h.afterSource

theorem awaitConsumer : P (Engine.awaitConsumer env) := by
  refine h.look (fun _ _ => rfl) fun s => ?_
  cases s.engine.consumer with
  | broken g => exact h.throw g
  | cancelled => exact h.throw _
  | waiting | writing => exact h.pure _
  | absent => exact h.afterConsumer
  | _ => exact h.bind (h.change fun _ => ⟨rfl, rfl, rfl⟩) fun _ => h.afterConsumer

/-! ### Whole acts -/

theorem proceed [Feed σ] (call : EngineCall) : P (Engine.proceed env call) := by
  cases call with
  | startingSource => exact h.startSource
  | leavingConsumer f => exact h.leaveConsumer f
  | abandoningSink f => exact h.bind h.closeSink fun _ => h.giveUp f
  | stoppingSource announces => exact h.stopSource announces
  | emptyingQueue => exact h.awaitConsumer
  | closingSink => exact h.bind h.closeSink fun _ => h.finishStop

/-- **A property of all small steps is one of every act.** -/
theorem run [Feed σ] (a : Act σ) : P (a.run env) := by
  cases a with
  | start => exact h.bind h.start fun _ => h.pure _
  | stop => exact h.bind h.stop fun _ => h.pure _
  | goOn call => exact h.bind (h.proceed call) fun _ => h.pure _
  | source f sent => exact h.sourceStep f sent
  | consume => exact h.consume
  | process v => exact h.process v
  | reload => exact h.bind h.reloadOnce fun _ => h.pure _

end Compositional

end Engine

end EventPipeline
