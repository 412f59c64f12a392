import EventPipeline.Proofs.Connector.Sinks
import EventPipeline.Proofs.Engine.Items

/-!
# What the handling of items depends on

A step is *confined* if it depends on the core of a session only: from two sessions with the same core it
gives the same result, tells the subscribers the same, and leaves the same core behind. It never fails,
and it leaves the state of the engine, its source, queue and consumer alone, and the number of events
received.

If no subscriber fails and the sink is oblivious, every piece of the handling of an item is confined, and
so are whole items (`confined_handleItem`). What others do meanwhile to the rest of the session then makes
no difference to the items.
-/

namespace EventPipeline

open SinkAction (Oblivious)

variable {σ κ α β : Type}

/-- No subscriber ever fails. -/
def Environment.Quiet (env : Environment σ κ) : Prop := ∀ notices n, (env.subscriber notices n).failure = none

namespace RunLog

/-- A counter keeps its value when another one is raised. -/
theorem counter_count_of_ne (r : RunLog) {c d : Counter} (h : d ≠ c) (amount : Nat) :
    (r.count d amount).counter c = r.counter c := by
  have hname : d.name ≠ c.name := by
    revert h
    cases c <;> cases d <;> decide
  simp only [counter, count, addTo, Table.find?_set, if_neg hname]

theorem counter_count_self (r : RunLog) (c : Counter) (amount : Nat) :
    (r.count c amount).counter c = r.counter c + amount := by
  simp only [counter, count, addTo, Table.find?_set, if_true, Option.getD_some]

end RunLog

namespace Engine

/-! ### Confined steps -/

/-- What stays the same while an item is handled. -/
structure Within (s t : Session σ κ) : Prop where
  /-- The state of the engine. -/
  state : t.engine.state = s.engine.state
  /-- The source. -/
  source : t.engine.source = s.engine.source
  /-- The queue. -/
  queue : t.engine.queue = s.engine.queue
  /-- The consumer. -/
  consumer : t.engine.consumer = s.engine.consumer
  /-- The number of events received. -/
  received : t.engine.log.counter .received = s.engine.log.counter .received

instance : IsPreorder (Session σ κ) Within where
  refl _ := ⟨rfl, rfl, rfl, rfl, rfl⟩
  trans _ _ _ h h' := ⟨h'.state.trans h.state, h'.source.trans h.source, h'.queue.trans h.queue,
    h'.consumer.trans h.consumer, h'.received.trans h.received⟩

/-- The step gives a result and tells notices on its way from one session to another. -/
structure Gives (a : EngineAction σ κ α) (s : Session σ κ) (x : α) (ns : List Notice) (t : Session σ κ) : Prop where
  /-- The result and the session after it. -/
  result : perform a s = (.ok x, t)
  /-- What was told. -/
  told : t.world.notices = s.world.notices ++ ns
  /-- What stayed the same. -/
  within : Within s t

/-- The step depends on the core of a session only. -/
def Confined (a : EngineAction σ κ α) : Prop :=
  ∀ s s', s.core = s'.core → ∃ x ns t t', Gives a s x ns t ∧ Gives a s' x ns t' ∧ t.core = t'.core

theorem Gives.pure (x : α) (s : Session σ κ) : Gives (pure x) s x [] s :=
  ⟨rfl, (List.append_nil _).symm, refl_of Within s⟩

theorem Gives.bind {a : EngineAction σ κ α} {k : α → EngineAction σ κ β} {s t u : Session σ κ} {x : α} {y : β}
    {ns ms : List Notice} (ha : Gives a s x ns t) (hk : Gives (k x) t y ms u) : Gives (a >>= k) s y (ns ++ ms) u where
  result := by rw [perform_bind_ok ha.result, hk.result]
  told := by rw [hk.told, ha.told, List.append_assoc]
  within := trans_of Within ha.within hk.within

/-- What a step gives is determined. -/
theorem Gives.unique {a : EngineAction σ κ α} {s t t' : Session σ κ} {x x' : α} {ns ns' : List Notice}
    (h : Gives a s x ns t) (h' : Gives a s x' ns' t') : x = x' ∧ ns = ns' ∧ t = t' := by
  have hr := h.result.symm.trans h'.result
  simp only [Prod.mk.injEq, Except.ok.injEq] at hr
  obtain ⟨rfl, rfl⟩ := hr
  exact ⟨rfl, List.append_cancel_left (h.told.symm.trans h'.told), rfl⟩

namespace Confined

theorem gives {a : EngineAction σ κ α} (ha : Confined a) (s : Session σ κ) : ∃ x ns t, Gives a s x ns t := by
  obtain ⟨x, ns, t, -, h, -⟩ := ha s s rfl
  exact ⟨x, ns, t, h⟩

/-- From another session with the same core the step gives the same. -/
theorem transfer {a : EngineAction σ κ α} (ha : Confined a) {s s' t : Session σ κ} {x : α} {ns : List Notice}
    (h : Gives a s x ns t) (hs : s.core = s'.core) : ∃ t', Gives a s' x ns t' ∧ t.core = t'.core := by
  obtain ⟨y, ms, u, u', hu, hu', hc⟩ := ha s s' hs
  obtain ⟨rfl, rfl, rfl⟩ := h.unique hu
  exact ⟨u', hu', hc⟩

theorem pure (x : α) : Confined (pure x : EngineAction σ κ α) :=
  fun s s' h => ⟨x, [], s, s', Gives.pure x s, Gives.pure x s', h⟩

theorem bind {a : EngineAction σ κ α} {k : α → EngineAction σ κ β} (ha : Confined a) (hk : ∀ x, Confined (k x)) :
    Confined (a >>= k) := by
  intro s s' h
  obtain ⟨x, ns, t, t', ht, ht', hc⟩ := ha s s' h
  obtain ⟨y, ms, u, u', hu, hu', hc'⟩ := hk x t t' hc
  exact ⟨y, ns ++ ms, u, u', ht.bind hu, ht'.bind hu', hc'⟩

/-- A step that looks at the core first. -/
theorem get_bind {k : Session σ κ → EngineAction σ κ β} (h : ∀ s s', s.core = s'.core → k s = k s')
    (hk : ∀ s, Confined (k s)) : Confined (get >>= k) := by
  intro s s' hs
  obtain ⟨x, ns, t, t', ht, ht', hc⟩ := hk s s s' hs
  rw [h s s' hs] at ht'
  refine ⟨x, ns, t, t', ⟨?_, ht.told, ht.within⟩, ⟨?_, ht'.told, ht'.within⟩, hc⟩
  · rw [perform_bind_ok (perform_get s), ht.result]
  · rw [perform_bind_ok (perform_get s'), ht'.result]

theorem forM {f : α → EngineAction σ κ PUnit} (h : ∀ x, Confined (f x)) (xs : List α) : Confined (xs.forM f) := by
  induction xs with
  | nil => exact Confined.pure _
  | cons x xs ih => exact (h x).bind fun _ => ih

/-- A step that tells nothing and neither sees nor changes more than the core. -/
theorem of_core {a : EngineAction σ κ α} (f : Core κ → α × Core κ)
    (h : ∀ s, (perform a s).1 = .ok (f s.core).1 ∧ (perform a s).2.core = (f s.core).2 ∧
      (perform a s).2.world.notices = s.world.notices ∧ Within s (perform a s).2) : Confined a := by
  have hg : ∀ s, Gives a s (f s.core).1 [] (perform a s).2 := by
    intro s
    obtain ⟨hr, -, hn, hw⟩ := h s
    exact ⟨Prod.ext hr rfl, by rw [hn, List.append_nil], hw⟩
  intro s s' hs
  refine ⟨_, [], _, _, hg s, by rw [hs]; exact hg s', ?_⟩
  rw [(h s).2.1, (h s').2.1, hs]

end Confined

/-! ### Small steps -/

theorem confined_record (stage level message : Text) (extra : Fields) :
    Confined (record stage level message extra : EngineAction σ κ Unit) :=
  Confined.of_core (fun c => ((), c)) fun _ => ⟨rfl, rfl, rfl, rfl, rfl, rfl, rfl, rfl⟩

theorem confined_count {c : RunLog.Counter} (h : c ≠ .received) (amount : Nat) :
    Confined (count c amount : EngineAction σ κ Unit) :=
  Confined.of_core (fun c => ((), c)) fun s =>
    ⟨rfl, rfl, rfl, rfl, rfl, rfl, rfl, RunLog.counter_count_of_ne s.engine.log h amount⟩

theorem confined_onAccumulator (action : StateM Accumulator α) :
    Confined (onAccumulator action : EngineAction σ κ α) :=
  Confined.of_core
    (fun c => ((action.run ⟨c.store.buffer, c.clock⟩).1,
      { c with
        clock := (action.run ⟨c.store.buffer, c.clock⟩).2.clock
        store.buffer := (action.run ⟨c.store.buffer, c.clock⟩).2.buffer }))
    fun _ => ⟨rfl, rfl, rfl, rfl, rfl, rfl, rfl, rfl⟩

/-- A step on the spilled values, whether it fails or not. -/
theorem confined_onSpill (action : Spilling α) : Confined (attempt (onSpill action) : EngineAction σ κ _) := by
  refine Confined.of_core
    (fun c => ((perform action c.store).1, { c with store := (perform action c.store).2 })) fun s => ?_
  rw [attempt, perform_lift, perform_onSpill]
  exact ⟨rfl, rfl, rfl, rfl, rfl, rfl, rfl, rfl⟩

/-- What a step of the sink comes to, and the parts that it leaves. -/
def Core.onSink (action : SinkAction κ α) (c : Core κ) : Except Failure α × Core κ :=
  match c.sink with
  | none => (.error noSink, c)
  | some k =>
    let o := SinkAction.outcome action k ⟨c.store.files, [], []⟩
    (o.1, { c with sink := some o.2.1, store.files := o.2.2 })

/-- A step of an oblivious sink, whether it fails or not. -/
theorem confined_onSink {action : SinkAction κ α} (h : Oblivious action) :
    Confined (attempt (onSink action) : EngineAction σ κ _) := by
  refine Confined.of_core (Core.onSink action) fun s => ?_
  unfold Core.onSink
  rw [attempt, perform_lift, perform_onSink]
  have hsink : s.core.sink = s.engine.sink := rfl
  rw [hsink]
  cases hk : s.engine.sink with
  | none => exact ⟨rfl, rfl, rfl, refl_of Within s⟩
  | some k =>
    have ho : SinkAction.outcome action k ⟨s.core.store.files, [], []⟩ = SinkAction.outcome action k s.world.host :=
      (h k s.world.host).symm
    simp only [ho]
    exact ⟨rfl, rfl, rfl, rfl, rfl, rfl, rfl, rfl⟩

variable {env : Environment σ κ} (hq : env.Quiet)

/-- The session after something has been told. -/
def withTold (env : Environment σ κ) (n : Notice) (s : Session σ κ) : Session σ κ :=
  { s with
    world.notices := s.world.notices ++ [n]
    world.host.out := s.world.host.out ++ (env.subscriber s.world.notices n).out
    world.host.err := s.world.host.err ++ (env.subscriber s.world.notices n).err }

include hq

theorem gives_tell (n : Notice) (s : Session σ κ) : Gives (tell env n) s () [n] (withTold env n s) := by
  refine ⟨?_, rfl, rfl, rfl, rfl, rfl, rfl⟩
  rw [tell, perform_bind_ok (perform_get s), perform_bind_ok (perform_set _ _), hq]
  rfl

theorem confined_tell (n : Notice) : Confined (tell env n) :=
  fun s s' hs => ⟨(), [n], _, _, gives_tell hq n s, gives_tell hq n s', hs⟩

theorem confined_signal (s : EngineSignal) : Confined (signal env s) := confined_tell hq _

theorem confined_report (f : Failure) : Confined (report env f) := by
  refine Confined.bind (Confined.of_core (fun c => ((), c)) fun _ => ?_) fun _ => ?_
  · exact ⟨rfl, rfl, rfl, rfl, rfl, rfl, rfl, rfl⟩
  · refine (confined_count (by decide) _).bind fun _ => ?_
    exact (confined_record _ _ _ _).bind fun _ => confined_signal hq _

theorem confined_finishStream : Confined (finishStream env) := by
  refine Confined.bind (Confined.of_core (fun c => ((), c)) fun _ => ?_) fun _ => confined_signal hq _
  exact ⟨rfl, rfl, rfl, rfl, rfl, rfl, rfl, rfl⟩

theorem confined_checkSpill : Confined (checkSpill env) := by
  refine Confined.get_bind (fun s s' hs => ?_) fun s => ?_
  · rw [show s.world.definition = s'.world.definition from congrArg Core.definition hs]
  · refine (confined_onSpill _).bind fun r => ?_
    rcases r with f | _ | r
    · exact confined_report hq f
    · exact Confined.pure _
    · refine (confined_count (by decide) _).bind fun _ => (confined_count (by decide) _).bind fun _ => ?_
      exact (confined_record _ _ _ _).bind fun _ => confined_signal hq _

theorem confined_flushStage (x : Nat × Stage) : Confined (flushStage env x) := by
  obtain ⟨i, stage⟩ := x
  refine Confined.get_bind (fun s s' hs => ?_) fun s => ?_
  · rw [show s.engine.buffer = s'.engine.buffer from congrArg (fun c => c.store.buffer) hs]
  · cases stage with
    | filter => exact Confined.pure _
    | transform => exact Confined.pure _
    | aggregate w reduce source =>
      dsimp only
      split_ifs
      · exact Confined.pure _
      · refine (confined_onAccumulator _).bind fun r => ?_
        rcases r with f | result
        · exact (confined_report hq _).bind fun _ => Confined.pure _
        · refine (confined_record _ _ _ _).bind fun _ => ?_
          rcases result with _ | v
          · exact Confined.pure _
          · cases v <;> exact Confined.pure _

theorem confined_flush (stages : List (Nat × Stage)) : Confined (flush env stages) := by
  induction stages with
  | nil => exact (confined_finishStream hq).bind fun _ => Confined.pure _
  | cons x rest ih =>
    refine (confined_flushStage hq x).bind fun r => ?_
    cases r with
    | none => exact ih
    | some v => exact Confined.pure _

theorem confined_beginFlush : Confined (beginFlush env) := by
  refine Confined.get_bind (fun s s' hs => ?_) fun s => confined_flush hq _
  rw [show s.engine.stages = s'.engine.stages from congrArg Core.stages hs]

theorem confined_resume (next : Handling) : Confined (resume env next) := by
  cases next with
  | event => exact (confined_checkSpill hq).bind fun _ => Confined.pure _
  | flush rest => exact confined_flush hq rest

theorem confined_beginEvent (event : Value) : Confined (beginEvent env event) := by
  refine Confined.get_bind (fun s s' hs => ?_) fun s => ?_
  · dsimp only
    rw [show s.engine.stages = s'.engine.stages from congrArg Core.stages hs,
      show s.engine.settings = s'.engine.settings from congrArg Core.settings hs]
  · refine (confined_onAccumulator _).bind fun outcome => ?_
    refine (Confined.forM (confined_report hq) _).bind fun _ => ?_
    rcases outcome.delivered? with _ | v
    · dsimp only
      split_ifs
      · refine (confined_count (by decide) _).bind fun _ => (confined_signal hq _).bind fun _ => ?_
        exact (confined_checkSpill hq).bind fun _ => Confined.pure _
      · exact (confined_checkSpill hq).bind fun _ => Confined.pure _
    · exact Confined.pure _

/-! ### Whole items -/

variable [Drain κ] (hk : ∀ v, Oblivious (Drain.write v : SinkAction κ Unit))

include hk

theorem confined_deliver (v : Value) : Confined (deliver env v) := by
  refine (confined_onSink (hk v)).bind fun r => ?_
  cases r with
  | error f => exact confined_report hq _
  | ok _ => exact (confined_count (by decide) _).bind fun _ => confined_signal hq _

theorem confined_flushAll (stages : List (Nat × Stage)) : Confined (flushAll env stages) := by
  induction stages with
  | nil => exact confined_finishStream hq
  | cons x rest ih =>
    refine Confined.bind ((confined_flushStage hq x).bind fun r => ?_) fun _ => ih
    cases r with
    | none => exact Confined.pure _
    | some v => exact confined_deliver hq hk v

theorem confined_settle (due : Option DueWrite) : Confined (settle env due) := by
  cases due with
  | none => exact Confined.pure _
  | some due =>
    obtain ⟨v, next⟩ := due
    refine (confined_deliver hq hk v).bind fun _ => ?_
    cases next with
    | event => exact confined_checkSpill hq
    | flush rest => exact confined_flushAll hq hk rest

end Engine

end EventPipeline
