import EventPipeline.Proofs.Engine.LaterStages
import EventPipeline.Proofs.Engine.Subscribers
import EventPipeline.Proofs.Engine.Telling

/-!
# The flush at the end of the stream

All aggregate stages share one buffer, so that at the end of the stream the first reducer that returns takes all
that is held. This module follows the flush reducer by reducer while no subscriber fails: a reducer that raises is
reported and leaves the buffer to the next one (`gives_flushStage_raised`), one that returns empties it, and its
result goes to the sink at once (`gives_flushOne_returned`); on an empty buffer nothing is left to do but to end
the stream (`perform_flushAll_of_empty`).

The other stages of the chain have no part in it: the flush does not look at them (`Blind.flushAll`).
-/

namespace EventPipeline

variable {σ κ α β : Type}

/-! ### Reducers -/

/-- The reducer of an aggregate stage of a chain. -/
structure Reducer where
  /-- The index of the stage. -/
  index : ℕ
  /-- The window of the stage. -/
  window : Window
  /-- What it makes of held values. -/
  reduce : List Value → Except Failure Value
  /-- How it was written. -/
  source : Option Text

namespace Reducer

/-- The stage of a reducer. -/
def stage (r : Reducer) : Stage := .aggregate r.window r.reduce r.source

/-- The stage of a reducer with its index. -/
def numbered (r : Reducer) : ℕ × Stage := (r.index, r.stage)

/-- The failure of the stage when the reducer raises. -/
def failure (r : Reducer) (f : Failure) : Failure := r.stage.failure r.index f

/-- The reducer of a stage, if it aggregates. -/
def ofStage? : ℕ × Stage → Option Reducer
  | (i, .aggregate w reduce source) => some ⟨i, w, reduce, source⟩
  | _ => none

end Reducer

namespace Chain

/-- The reducers of a chain, in the order of their stages. -/
def reducers (stages : List Stage) : List Reducer := (aggregateStages stages).filterMap Reducer.ofStage?

theorem map_numbered_reducers (stages : List Stage) :
    (reducers stages).map Reducer.numbered = aggregateStages stages := by
  have hkind : ∀ x ∈ aggregateStages stages, x.2.kind = .aggregate := fun x hx => by
    simpa using (List.mem_filter.1 hx).2
  rw [reducers]
  generalize aggregateStages stages = xs at hkind
  induction xs with
  | nil => rfl
  | cons x xs ih =>
    obtain ⟨hx, hxs⟩ := List.forall_mem_cons.1 hkind
    obtain ⟨i, stage⟩ := x
    cases stage with
    | aggregate w reduce source => exact congrArg _ (ih hxs)
    | _ => cases hx

end Chain

namespace Engine

/-- The reducer was called in the turn: it is not called on an empty buffer. -/
def Turn.isCall (t : Turn) : Bool := !t.held.isEmpty

/-! ### Flushing one stage -/

/-- On an empty buffer the flush of a stage does nothing. -/
theorem perform_flushOne_of_empty [Drain κ] (env : Environment σ κ) (x : ℕ × Stage) {s : Session σ κ}
    (hs : s.engine.buffer = []) : perform (flushOne env x) s = (.ok (), s) := by
  obtain ⟨i, stage⟩ := x
  have hlength : s.engine.buffer.length = 0 := by rw [hs, List.length_nil]
  have hstage : perform (flushStage env (i, stage)) s = (.ok none, s) := by
    rw [flushStage, perform_bind_ok (perform_get s)]
    cases stage with
    | aggregate => exact congrArg (fun a => perform a s) (if_pos hlength)
    | _ => rfl
  rw [flushOne, perform_bind_ok hstage]
  rfl

/-- **On an empty buffer** the stream just ends. -/
theorem perform_flushAll_of_empty [Drain κ] (env : Environment σ κ) (xs : List (ℕ × Stage)) {s : Session σ κ}
    (hs : s.engine.buffer = []) : perform (flushAll env xs) s = perform (finishStream env) s := by
  induction xs with
  | nil => rfl
  | cons x xs ih => rw [flushAll, perform_bind_ok (perform_flushOne_of_empty env x hs), ih]

/-- The session after the end of the stream was announced. -/
def withEnd (env : Environment σ κ) (s : Session σ κ) : Session σ κ :=
  withTold env (.engine .finished) { s with engine := { s.engine with ended := some true } }

section

variable {env : Environment σ κ} (hq : env.Quiet)

include hq

theorem perform_finishStream (s : Session σ κ) : perform (finishStream env) s = (.ok (), withEnd env s) := by
  have hchange : perform (change fun e => { e with ended := some true } : EngineAction σ κ Unit) s =
      (.ok (), { s with engine := { s.engine with ended := some true } }) := rfl
  rw [finishStream, perform_bind_ok hchange, signal, (gives_tell hq _ _).result]
  rfl

variable {s : Session σ κ} {r : Reducer} (hs : s.engine.buffer ≠ [])

include hs

omit hq in
/-- A flush hands the held values to the reducer. -/
theorem perform_flushStage_numbered :
    perform (flushStage env r.numbered) s =
      match r.reduce s.engine.buffer with
      | .error f => perform (do report env (r.failure f); return none) s
      | .ok v => perform (do
          record ("stage." ++ Text.ofNat r.index ++ "." ++ r.stage.kind.name) "info" "end-of-stream flush"
            [("events", .nat s.engine.buffer.length)]
          return v.present?) { s with engine := { s.engine with buffer := [] } } := by
  have hlength : s.engine.buffer.length ≠ 0 := by simpa using hs
  have hflush : (Accumulator.flush r.reduce).run.run ⟨s.engine.buffer, s.world.clock⟩ =
      perform (Accumulator.flush r.reduce) ⟨s.engine.buffer, s.world.clock⟩ := rfl
  rw [Reducer.numbered, Reducer.stage, flushStage, perform_bind_ok (perform_get s)]
  dsimp only
  rw [if_neg hlength, perform_bind_ok (perform_onAccumulator _ s), hflush, Accumulator.perform_flush, if_neg hs]
  cases r.reduce s.engine.buffer with
  | error f => rfl
  | ok v => cases v <;> rfl

/-- **A reducer that raises** is reported, and the buffer is left alone. -/
theorem gives_flushStage_raised {f : Failure} (hr : r.reduce s.engine.buffer = .error f) :
    ∃ t, Gives (flushStage env r.numbered) s none [.engine (.error (r.failure f))] t ∧ Aside s t := by
  obtain ⟨t, ht⟩ := tells_report hq (r.failure f) s
  have h : Gives (do report env (r.failure f); return none) s (none : Option Value) _ t := ht.bind (Gives.pure none t)
  refine ⟨t, ⟨?_, h.told, h.within⟩, ht.leads (leads_report env _)⟩
  rw [perform_flushStage_numbered hs, hr]
  exact h.result

omit hq in
/-- **A reducer that returns** empties the buffer, and its result goes on unless it is null. -/
theorem gives_flushStage_returned {v : Value} (hr : r.reduce s.engine.buffer = .ok v) :
    ∃ t, Gives (flushStage env r.numbered) s v.present? [] t ∧
      Aside { s with engine := { s.engine with buffer := [] } } t := by
  obtain ⟨t, ht⟩ := tells_record ("stage." ++ Text.ofNat r.index ++ "." ++ r.stage.kind.name) "info"
    "end-of-stream flush" [("events", .nat s.engine.buffer.length)]
    { s with engine := { s.engine with buffer := [] } }
  refine ⟨t, ⟨?_, ht.told, ht.within.state, ht.within.source, ht.within.queue, ht.within.consumer,
    ht.within.received⟩, ht.leads (leads_record _ _ _ _)⟩
  rw [perform_flushStage_numbered hs, hr]
  exact perform_bind_ok ht.result

end

/-! ### Flushing all stages -/

/-- What a reducer that returned hands to the sink: its result, unless that is null. -/
def written? (returned : Option (Reducer × Value)) : Option Value := returned.bind fun x => x.2.present?

/-- The flush of reducers at the end of the stream, from one session to another: some raised, one may have returned,
and the others were not called. -/
structure EndOfStream [Drain κ] (rs : List Reducer) (s t : Session σ (Recorded κ)) (ts : List Turn)
    (raised : List (Reducer × Failure)) (returned : Option (Reducer × Value)) (uncalled : List Reducer) : Prop where
  /-- The reducers come in the order of their stages. -/
  order : rs = raised.map Prod.fst ++ returned.toList.map Prod.fst ++ uncalled
  /-- The calls are those of the reducers that raised and of the one that returned, each with all that was held. -/
  calls : ts.filter Turn.isCall =
    raised.map (fun x => ⟨x.1.index, none, s.engine.buffer, .error x.2⟩) ++
      returned.toList.map fun x => ⟨x.1.index, none, s.engine.buffer, .ok (some x.2)⟩
  /-- How they raised. -/
  raises : ∀ x ∈ raised, x.1.reduce s.engine.buffer = .error x.2
  /-- What was returned. -/
  returns : ∀ x ∈ returned, x.1.reduce s.engine.buffer = .ok x.2
  /-- Nothing is called on an empty buffer. -/
  idle : s.engine.buffer = [] → raised = [] ∧ returned = none
  /-- If none returned, all were called. -/
  exhausts : s.engine.buffer ≠ [] → returned = none → uncalled = []
  /-- The buffer is emptied by the reducer that returned, and by nothing else. -/
  buffer : t.engine.buffer = if returned.isSome then [] else s.engine.buffer
  /-- The sink gets what was returned, and nothing else. -/
  writes : s.engine.sink.isSome → sinkCalls t = sinkCalls s ++ (written? returned).toList.map .write
  /-- The failures are told first, then what became of the write, and then the end. -/
  told : ∃ verdict : Except Failure Unit,
    (∀ v ∈ written? returned, ∃ u : Session σ (Recorded κ), u.engine.sink = s.engine.sink ∧
      u.world.host.files = s.world.host.files ∧ verdict = (perform (onSink (Drain.write v)) u).1) ∧
    t.world.notices = s.world.notices ++
      (raised.map (fun x => .engine (.error (x.1.failure x.2))) ++
        (written? returned).toList.map (fun v => .engine (writeSignal v verdict)) ++ [.engine .finished])
  /-- The end of the stream has been handled. -/
  ended : t.engine.ended = some true

section

variable [Drain κ] {env : Environment σ (Recorded κ)} (hq : env.Quiet)

include hq

omit hq in
/-- Without reducers, and on an empty buffer, nothing is called. -/
theorem endOfStream_of_none {rs : List Reducer} {s : Session σ (Recorded κ)} (h : s.engine.buffer = [] ∨ rs = []) :
    EndOfStream rs s (withEnd env s) (flushTurns env (rs.map Reducer.numbered) s) [] none rs where
  order := rfl
  calls := by
    rcases h with hs | rfl
    · refine List.filter_eq_nil_iff.2 fun t ht => ?_
      rw [Turn.isCall, (idle_of_empty env _ hs t ht).held]
      exact Bool.false_ne_true
    · rfl
  raises := List.forall_mem_nil _
  returns _ h := nomatch h
  idle _ := ⟨rfl, rfl⟩
  exhausts hs _ := h.resolve_left hs
  buffer := rfl
  writes _ := (List.append_nil _).symm
  told := ⟨.ok (), fun _ h => (nomatch h), rfl⟩
  ended := rfl

omit hq in
/-- The turn of a reducer, and then those of the others. -/
theorem flushTurns_cons (rs : List Reducer) {s t : Session σ (Recorded κ)} {r : Reducer}
    (ht : perform (flushOne env r.numbered) s = (.ok (), t)) :
    flushTurns env ((r :: rs).map Reducer.numbered) s =
      ⟨r.index, none, s.engine.buffer, flushResult r.stage s⟩ :: flushTurns env (rs.map Reducer.numbered) t := by
  rw [List.map_cons, flushTurns, ht]
  rfl

omit [Drain κ] hq in
theorem flushResult_stage {s : Session σ (Recorded κ)} (hs : s.engine.buffer ≠ []) (r : Reducer) :
    flushResult r.stage s = (r.reduce s.engine.buffer).map some := by
  rw [Reducer.stage, flushResult, Accumulator.perform_flush, if_neg hs]
  cases r.reduce s.engine.buffer <;> rfl

omit hq in
/-- A reducer that raises, in front of the others. -/
theorem EndOfStream.raise {rs : List Reducer} {s t u : Session σ (Recorded κ)} {ts : List Turn}
    {raised : List (Reducer × Failure)} {returned : Option (Reducer × Value)} {uncalled : List Reducer}
    (h : EndOfStream rs t u ts raised returned uncalled) (hst : Aside s t) {r : Reducer} {f : Failure}
    (hs : s.engine.buffer ≠ []) (hr : r.reduce s.engine.buffer = .error f)
    (htold : t.world.notices = s.world.notices ++ [.engine (.error (r.failure f))]) :
    EndOfStream (r :: rs) s u (⟨r.index, none, s.engine.buffer, .error f⟩ :: ts) ((r, f) :: raised) returned
      uncalled := by
  have hbuffer : t.engine.buffer = s.engine.buffer := congrArg SpillState.buffer hst.store_eq
  have hfiles : t.world.host.files = s.world.host.files := congrArg SpillState.files hst.store_eq
  have hsink : t.engine.sink = s.engine.sink := congrArg Core.sink hst.core_eq
  have hcalls : sinkCalls t = sinkCalls s := by rw [sinkCalls, sinkCalls, hsink]
  have hcall : (⟨r.index, none, s.engine.buffer, .error f⟩ : Turn).isCall = true := by
    simpa [Turn.isCall] using hs
  have hraises := h.raises
  have hreturns := h.returns
  have hkeeps := h.buffer
  have hends := h.exhausts
  have hturns := h.calls
  rw [hbuffer] at hraises hreturns hkeeps hends hturns
  refine ⟨?_, ?_, ?_, hreturns, fun he => absurd he hs, hends, hkeeps, fun hi => ?_, ?_, h.ended⟩
  · rw [h.order]
    rfl
  · rw [List.filter_cons_of_pos hcall, hturns]
    rfl
  · exact List.forall_mem_cons.2 ⟨hr, hraises⟩
  · rw [h.writes (hsink ▸ hi), hcalls]
  · obtain ⟨verdict, hverdict, hall⟩ := h.told
    refine ⟨verdict, fun v hv => ?_, ?_⟩
    · obtain ⟨w, hwsink, hwfiles, hw⟩ := hverdict v hv
      exact ⟨w, hwsink.trans hsink, hwfiles.trans hfiles, hw⟩
    · rw [hall, htold, List.map_cons, List.append_assoc]
      rfl

/-- **A reducer that returns**: the buffer is emptied, and its result is written unless it is null. -/
theorem gives_flushOne_returned {s : Session σ (Recorded κ)} {r : Reducer} {v : Value} (hs : s.engine.buffer ≠ [])
    (hr : r.reduce s.engine.buffer = .ok v) :
    ∃ verdict t, Gives (flushOne env r.numbered) s ()
        (v.present?.toList.map fun w => .engine (writeSignal w verdict)) t ∧
      t.engine.buffer = [] ∧
      (s.engine.sink.isSome → Keeps (v.present?.toList.map .write) s t) ∧
      ∀ w ∈ v.present?, ∃ u : Session σ (Recorded κ), u.engine.sink = s.engine.sink ∧
        u.world.host.files = s.world.host.files ∧ verdict = (perform (onSink (Drain.write w)) u).1 := by
  obtain ⟨u, hu, hsu⟩ : ∃ u, Gives (flushStage env r.numbered) s v.present? [] u ∧
      Aside { s with engine := { s.engine with buffer := [] } } u := gives_flushStage_returned hs hr
  have hkeeps : Keeps [] s u := hu.leads (keeps_flushStage env r.numbered)
  have hbuffer : u.engine.buffer = [] := congrArg SpillState.buffer hsu.store_eq
  cases hv : v.present? with
  | none =>
    rw [hv] at hu
    exact ⟨.ok (), u, hu.bind (Gives.pure () u), hbuffer, fun _ => hkeeps, fun w hw => (nomatch hw)⟩
  | some w =>
    rw [hv] at hu
    obtain ⟨t, ht, -⟩ := gives_deliver hq w u
    refine ⟨_, t, hu.bind ht, ?_, fun hsink => ?_, ?_⟩
    · exact (ht.leads (sameBuffer_deliver env w)).trans hbuffer
    · have hwrites := keeps_deliver env w (hkeeps.sink.trans hsink)
      rw [ht.result] at hwrites
      exact hkeeps.trans hwrites
    · rintro _ ⟨⟩
      exact ⟨u, congrArg Core.sink hsu.core_eq, congrArg SpillState.files hsu.store_eq, rfl⟩

/-- A reducer that returns is the last one that is called. -/
theorem endOfStream_of_return (rs : List Reducer) {s : Session σ (Recorded κ)} {r : Reducer} {v : Value}
    (hs : s.engine.buffer ≠ []) (hr : r.reduce s.engine.buffer = .ok v) :
    ∃ t, perform (flushAll env ((r :: rs).map Reducer.numbered)) s = (.ok (), t) ∧
      EndOfStream (r :: rs) s t (flushTurns env ((r :: rs).map Reducer.numbered) s) [] (some (r, v)) rs := by
  obtain ⟨verdict, t, ht, hbuffer, hkeeps, hverdict⟩ := gives_flushOne_returned hq hs hr
  have hcall : (⟨r.index, none, s.engine.buffer, .ok (some v)⟩ : Turn).isCall = true := by
    simpa [Turn.isCall] using hs
  have hidle : (flushTurns env (rs.map Reducer.numbered) t).filter Turn.isCall = [] :=
    (endOfStream_of_none (.inl hbuffer)).calls
  refine ⟨withEnd env t, ?_, ?_⟩
  · rw [List.map_cons, flushAll, perform_bind_ok ht.result, perform_flushAll_of_empty env _ hbuffer,
      perform_finishStream hq]
  rw [flushTurns_cons rs ht.result, flushResult_stage hs, hr]
  refine ⟨rfl, ?_, List.forall_mem_nil _, ?_, fun he => absurd he hs, fun _ h => absurd h (Option.some_ne_none _),
    hbuffer, fun hsink => ?_, ⟨verdict, hverdict, ?_⟩, rfl⟩
  · rw [Except.map, List.filter_cons_of_pos hcall, hidle]
    rfl
  · rintro _ ⟨⟩
    exact hr
  · exact (hkeeps hsink).calls
  · show t.world.notices ++ [_] = _
    rw [ht.told, List.append_assoc]
    rfl

/-- **The flush, reducer by reducer.** -/
theorem flushAll_endOfStream (rs : List Reducer) (s : Session σ (Recorded κ)) :
    ∃ raised returned uncalled t, perform (flushAll env (rs.map Reducer.numbered)) s = (.ok (), t) ∧
      EndOfStream rs s t (flushTurns env (rs.map Reducer.numbered) s) raised returned uncalled := by
  induction rs generalizing s with
  | nil => exact ⟨_, _, _, _, perform_finishStream hq s, endOfStream_of_none (.inr rfl)⟩
  | cons r rs ih =>
    by_cases hs : s.engine.buffer = []
    · refine ⟨_, _, _, _, ?_, endOfStream_of_none (.inl hs)⟩
      rw [perform_flushAll_of_empty env _ hs, perform_finishStream hq]
    cases hr : r.reduce s.engine.buffer with
    | error f =>
      obtain ⟨t, ht, hst⟩ := gives_flushStage_raised hq hs hr
      have hone : perform (flushOne env r.numbered) s = (.ok (), t) := perform_bind_ok ht.result
      obtain ⟨raised, returned, uncalled, u, hu, h⟩ := ih t
      refine ⟨(r, f) :: raised, returned, uncalled, u, ?_, ?_⟩
      · rw [List.map_cons, flushAll, perform_bind_ok hone, hu]
      · rw [flushTurns_cons rs hone, flushResult_stage hs, hr]
        exact h.raise hst hs hr ht.told
    | ok v =>
      obtain ⟨t, ht, h⟩ := endOfStream_of_return hq rs hs hr
      exact ⟨_, _, _, t, ht, h⟩

end

/-! ### What the flush does not look at -/

/-- The session with other stages. -/
def withStages (stages : List Stage) (s : Session σ κ) : Session σ κ :=
  { s with engine := { s.engine with stages := stages } }

/-- The step does not look at the stages of the chain. -/
def Blind (a : EngineAction σ κ α) : Prop :=
  ∀ stages s, perform a (withStages stages s) = ((perform a s).1, withStages stages (perform a s).2)

namespace Blind

theorem pure (x : α) : Blind (pure x : EngineAction σ κ α) := fun _ _ => rfl

theorem bind {a : EngineAction σ κ α} {k : α → EngineAction σ κ β} (ha : Blind a) (hk : ∀ x, Blind (k x)) :
    Blind (a >>= k) := by
  intro stages s
  rw [perform_bind, perform_bind, ha]
  rcases perform a s with ⟨f | x, t⟩
  · rfl
  · exact hk x stages t

theorem attempt {a : EngineAction σ κ α} (ha : Blind a) : Blind (attempt a) := by
  intro stages s
  rw [Engine.attempt, perform_lift, perform_lift, ha]

/-- To look at the session apart from the stages. -/
theorem get_bind {k : Session σ κ → EngineAction σ κ α} (h : ∀ stages s, k (withStages stages s) = k s)
    (hk : ∀ s, Blind (k s)) : Blind (get >>= k) := by
  intro stages s
  rw [perform_bind_ok (perform_get _), perform_bind_ok (perform_get s), h]
  exact hk s stages s

theorem onAccumulator (action : StateM Accumulator α) : Blind (onAccumulator action : EngineAction σ κ α) :=
  fun _ _ => rfl

theorem onSink (action : SinkAction κ α) : Blind (onSink action : EngineAction σ κ α) := by
  intro stages s
  have hsink : (withStages stages s).engine.sink = s.engine.sink := rfl
  rw [perform_onSink, perform_onSink, hsink]
  cases s.engine.sink <;> rfl

variable (env : Environment σ κ)

theorem signal (n : EngineSignal) : Blind (signal env n) := by
  intro stages s
  rw [Engine.signal, perform_tell, perform_tell]
  rfl

theorem record (stage level message : Text) (extra : Fields) :
    Blind (record stage level message extra : EngineAction σ κ Unit) := fun _ _ => rfl

theorem count (c : RunLog.Counter) (amount : Nat) : Blind (count c amount : EngineAction σ κ Unit) := fun _ _ => rfl

theorem report (f : Failure) : Blind (report env f) :=
  Blind.bind (fun _ _ => rfl) fun _ => (count _ _).bind fun _ => (record _ _ _ _).bind fun _ => signal env _

theorem flushStage (x : ℕ × Stage) : Blind (flushStage env x) := by
  obtain ⟨i, stage⟩ := x
  refine get_bind (fun _ _ => rfl) fun s => ?_
  cases stage with
  | filter => exact Blind.pure _
  | transform => exact Blind.pure _
  | aggregate w reduce source =>
    dsimp only
    split_ifs
    · exact Blind.pure _
    · refine (Blind.onAccumulator _).bind fun r => ?_
      rcases r with f | result
      · exact (Blind.report env _).bind fun _ => Blind.pure _
      · refine (Blind.record _ _ _ _).bind fun _ => ?_
        rcases result with _ | v
        · exact Blind.pure _
        · cases v <;> exact Blind.pure _

variable [Drain κ]

theorem deliver (v : Value) : Blind (deliver env v) := by
  refine (onSink _).attempt.bind fun r => ?_
  cases r with
  | error f => exact report env _
  | ok _ => exact (count _ _).bind fun _ => signal env _

/-- **The flush does not look at the chain** any more, but at the stages that it was given. -/
theorem flushAll (xs : List (ℕ × Stage)) : Blind (flushAll env xs) := by
  induction xs with
  | nil => exact Blind.bind (fun _ _ => rfl) fun _ => signal env _
  | cons x xs ih =>
    refine Blind.bind (Blind.bind (flushStage env x) fun r => ?_) fun _ => ih
    cases r with
    | none => exact Blind.pure _
    | some v => exact deliver env v

end Blind

/-- **The end of the stream.** The reducers are called on all that is held, in the order of their stages, until one
returns; those that raised before are reported, and what was returned is written, unless it is null. The end is told
after all of that. The other stages of the chain have no part in it. -/
theorem finish_endOfStream [Drain κ] {env : Environment σ (Recorded κ)} (hq : env.Quiet) (s : Session σ (Recorded κ)) :
    ∃ raised returned uncalled t, perform (finish env) s = (.ok (), t) ∧
      EndOfStream (Chain.reducers s.engine.stages) s t (turns env .finish s) raised returned uncalled ∧
      ∀ stages, Chain.aggregateStages stages = Chain.aggregateStages s.engine.stages →
        perform (finish env) (withStages stages s) = (.ok (), withStages stages t) := by
  obtain ⟨raised, returned, uncalled, t, ht, h⟩ := flushAll_endOfStream hq (Chain.reducers s.engine.stages) s
  rw [Chain.map_numbered_reducers] at ht h
  refine ⟨raised, returned, uncalled, t, ?_, h, fun stages hstages => ?_⟩
  · rw [finish, perform_bind_ok (perform_get s), ht]
  · rw [finish, perform_bind_ok (perform_get _)]
    show perform (flushAll env (Chain.aggregateStages stages)) _ = _
    rw [hstages, Blind.flushAll, ht]

/-- A value is held for two reducers, of which the first one raises, and a transform comes behind them. -/
def brokenFirst : Session MemorySource (Recorded MemorySink) where
  engine :=
    { (makingPairs 1).engine with
      stages :=
        [.aggregate ⟨none, none⟩ (fun _ => .error (.plain .value "broken")) none,
          .aggregate ⟨none, none⟩ (fun held => .ok (.array held)) none, .transform (fun v => .ok (.array [v])) none]
      buffer := [.int 1] }
  world := (makingPairs 1).world

/-- The second reducer takes the value, and its result is written as it is. -/
theorem finish_endOfStream_second :
    nobody.Quiet ∧
      ∃ raised returned uncalled t,
        EndOfStream (Chain.reducers brokenFirst.engine.stages) brokenFirst t (turns nobody .finish brokenFirst) raised
            returned uncalled ∧
          sinkCalls t = [.write (.array [.int 1])] ∧ t.engine.buffer = [] := by
  have hquiet : nobody.Quiet := fun _ _ => rfl
  have hcalls : sinkCalls (perform (finish nobody) brokenFirst).2 = [.write (.array [.int 1])] := by decide +kernel
  have hbuffer : (perform (finish nobody) brokenFirst).2.engine.buffer = [] := by decide +kernel
  obtain ⟨raised, returned, uncalled, t, ht, h, -⟩ := finish_endOfStream hquiet brokenFirst
  rw [ht] at hcalls hbuffer
  exact ⟨hquiet, raised, returned, uncalled, t, h, hcalls, hbuffer⟩

end Engine

end EventPipeline
