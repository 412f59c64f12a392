import EventPipeline.Proofs.Engine.StartPieces
import EventPipeline.Proofs.Engine.Stopping

/-!
# A start that fails leaves nothing half open

`Attempt` is a start of an engine as far as it has come, `Step` what may happen to it, and `Reaches` any number of
steps: the source may change and send anything at any time, the consumer may act, and others may change whatever the
engine acts on. Only a stop of the engine is left out.

What holds of every start is `Accounted`:
* it fails if its connectors cannot be made, and if the source fails to start (`HeadsForFailure`);
* once it has failed, the engine is as it was before, its sink, if one was made, was closed once, after all writes,
  and the failure was told once (`LeftClean`);
* after that nothing is done about events any more, whatever comes (`Dormant`).

The invariant is `Phase`: a start has failed, or waits while its sink is open (`Underway`), or the engine runs.
-/

namespace EventPipeline

open Relation (ReflTransGen)

variable {σ κ : Type}

namespace Engine

/-! ### Attempts -/

/-- A start of an engine, as far as it has come. -/
structure Attempt (σ κ : Type) where
  /-- The engine and what it acts on. -/
  session : Session σ (Recorded κ)
  /-- What has become of the start: it has failed, or it waits at a call, or it has come to its end. -/
  outcome : Except Failure (Option EngineCall)
  /-- The sink that was made, also when the engine has let go of it. -/
  sink : Option (Recorded κ)
  /-- What the start itself has told. -/
  said : List Notice
  /-- What the source and the consumer have told meanwhile. -/
  aside : List Notice

/-- The notices that were added between two sessions. -/
def news (s t : Session σ κ) : List Notice := t.world.notices.drop s.world.notices.length

theorem news_eq {s t : Session σ κ} {ns : List Notice} (h : t.world.notices = s.world.notices ++ ns) :
    news s t = ns := by
  rw [news, h, List.drop_left]

namespace Attempt

variable [Feed σ] [Drain κ] (env : Environment σ (Recorded κ))

/-- A start begins. -/
def begun (s : Session σ (Recorded κ)) : Attempt σ κ where
  session := (perform (Engine.start env) s).2
  outcome := (perform (Engine.start env) s).1
  sink := (perform (makeConnectors env) (entered .initializing s)).2.engine.sink
  said := news s (perform (Engine.start env) s).2
  aside := []

/-- The sink in the next piece of a start, before the engine lets go of it. -/
def sinkIn (s : Session σ (Recorded κ)) : EngineCall → Option (Recorded κ)
  | .abandoningSink _ => (perform (closeSink env) s).2.engine.sink
  | _ => s.engine.sink

/-- A start goes on from where it waited. -/
def goOn (call : EngineCall) (c : Attempt σ κ) : Attempt σ κ :=
  { c with
    session := (perform (proceed env call) c.session).2
    outcome := (perform (proceed env call) c.session).1
    sink := sinkIn env c.session call
    said := c.said ++ news c.session (perform (proceed env call) c.session).2 }

/-- The source or the consumer has acted. -/
def meanwhile (c : Attempt σ κ) (s : Session σ (Recorded κ)) : Attempt σ κ :=
  { c with session := s, sink := s.engine.sink.or c.sink, aside := c.aside ++ news c.session s }

omit [Feed σ] [Drain κ] in
/-- Nothing has happened if nothing has changed. -/
theorem meanwhile_self {c : Attempt σ κ} (h : c.session.engine.sink.or c.sink = c.sink) :
    c.meanwhile c.session = c := by
  simp [meanwhile, news, h]

/-- What may happen to a start. -/
inductive Step : Attempt σ κ → Attempt σ κ → Prop where
  /-- The source changes in any way, and sends a signal or none. -/
  | source (c : Attempt σ κ) (f : Source σ → Source σ) (sent : Option SourceSignal) :
      Step c (c.meanwhile (perform (sourceStep env f sent) c.session).2)
  /-- The consumer acts. -/
  | consumer (c : Attempt σ κ) : Step c (c.meanwhile (perform (consume env) c.session).2)
  /-- Others change what the engine acts on. -/
  | others (c : Attempt σ κ) (w : World) : Step c { c with session.world := w }
  /-- The start goes on. -/
  | goOn (c : Attempt σ κ) (call : EngineCall) (h : c.outcome = .ok (some call)) : Step c (c.goOn env call)

/-- Any number of steps. -/
abbrev Reaches : Attempt σ κ → Attempt σ κ → Prop := ReflTransGen (Step env)

end Attempt

/-! ### What the source and the consumer do meanwhile -/

/-- What a step of the source does: it puts items into the queue, if there is one, or has a failure reported. -/
structure Sends (f : Source σ → Source σ) (ns : List Notice) (s t : Session σ κ) : Prop where
  /-- What was told. -/
  told : t.world.notices = s.world.notices ++ ns
  /-- Only failures are told. -/
  failures : ∀ n ∈ ns, n.isError = true
  /-- The engine is in the same state. -/
  state : t.engine.state = s.engine.state
  /-- The source has changed. -/
  source : t.engine.source = s.engine.source.map f
  /-- The consumer is the same. -/
  consumer : t.engine.consumer = s.engine.consumer
  /-- The core is the same. -/
  core : t.core = s.core
  /-- There is a queue if there was one. -/
  queue : t.engine.queue.isSome = s.engine.queue.isSome
  /-- The consumer is not told to leave. -/
  noStop : .stop ∉ waiting s → .stop ∉ waiting t
  /-- Without a queue no event is received. -/
  received : s.engine.queue = none → eventsReceived t = eventsReceived s

section

variable {env : Environment σ κ} (hq : env.Quiet)

theorem stop_notMem_withItem {item : QueueItem} (hi : item ≠ .stop) {s : Session σ κ} (h : .stop ∉ waiting s) :
    .stop ∉ waiting (withItem item s) := by
  cases hqueue : s.engine.queue with
  | none => simp [waiting, withItem, hqueue]
  | some q =>
    rw [waiting_withItem item (by rw [hqueue]; rfl), List.mem_append, List.mem_singleton, not_or]
    exact ⟨h, hi.symm⟩

include hq

/-- **A step of the source.** -/
theorem sends_sourceStep (f : Source σ → Source σ) (sent : Option SourceSignal) (s : Session σ κ) :
    ∃ ns t, perform (sourceStep env f sent) s = (.ok (), t) ∧ Sends f ns s t := by
  let changed : Session σ κ := { s with engine.source := s.engine.source.map f }
  have hputs : ∀ (item : QueueItem) (log : RunLog), item ≠ .stop →
      (s.engine.queue = none → log.counter .received = s.engine.log.counter .received) →
      Sends f [] s (withItem item { changed with engine.log := log }) := by
    intro item log hi hlog
    refine ⟨(List.append_nil _).symm, by simp, rfl, rfl, rfl, rfl, Option.isSome_map, fun h => ?_, hlog⟩
    exact stop_notMem_withItem hi h
  have hnothing : Sends f [] s changed :=
    ⟨(List.append_nil _).symm, by simp, rfl, rfl, rfl, rfl, rfl, id, fun _ => rfl⟩
  rcases sent with _ | v | _ | g
  · exact ⟨[], changed, rfl, hnothing⟩
  · have hstep : perform (sourceStep env f (some (.data v))) s = perform (hear env (.data v)) changed := rfl
    rw [hstep, hear, perform_bind_ok (perform_get changed)]
    by_cases hqueue : changed.engine.queue.isSome
    · rw [if_pos hqueue]
      refine ⟨[], _, rfl, hputs (.event v) (s.engine.log.count .received 1) (by simp) fun hnone => ?_⟩
      rw [show changed.engine.queue = none from hnone] at hqueue
      cases hqueue
    · rw [if_neg hqueue]
      exact ⟨[], changed, rfl, hnothing⟩
  · exact ⟨[], _, rfl, hputs .finished s.engine.log (by simp) fun _ => rfl⟩
  · obtain ⟨t, ht⟩ := tells_report hq g changed
    have hqueue : t.engine.queue = s.engine.queue := ht.within.queue
    refine ⟨_, t, ht.result, ht.told, by simp [Notice.isError], ht.within.state, ht.within.source,
      ht.within.consumer, (ht.leads (leads_report env g)).core_eq, congrArg Option.isSome hqueue, ?_,
      fun _ => ht.within.received⟩
    intro h
    rw [waiting, hqueue]
    exact h

end

/-- What a step of the consumer does while the engine is being started. -/
structure Consumes (ns : List Notice) (s t : Session σ (Recorded κ)) : Prop where
  /-- What was told. -/
  told : t.world.notices = s.world.notices ++ ns
  /-- The source is the same. -/
  source : t.engine.source = s.engine.source
  /-- The consumer goes on. -/
  active : isActive t.engine.consumer
  /-- There is a queue. -/
  queue : t.engine.queue.isSome
  /-- The consumer is not told to leave. -/
  noStop : .stop ∉ waiting t
  /-- There is a sink. -/
  sink : t.engine.sink.isSome
  /-- The sink got values. -/
  written : ∃ vs : List Value, sinkCalls t = sinkCalls s ++ vs.map .write

section

variable {env : Environment σ (Recorded κ)} {s : Session σ (Recorded κ)}

/-- A piece of an item is handled, begun with what is left of the queue. -/
theorem consumes_piece [Drain κ] {a : EngineAction σ (Recorded κ) (Option DueWrite)} {q : Queue} {due : Option DueWrite}
    {ns : List Notice} {t u : Session σ (Recorded κ)} (vs : List Value) (hu : u = { s with engine.queue := some q })
    (hstep : perform (consume env) s = perform (handle env a) u) (hsink : s.engine.sink.isSome)
    (hstop : .stop ∉ q.items) (hg : Gives a u due ns t) (hk : Keeps (vs.map .write) u (perform a u).2) :
    ∃ ns t, perform (consume env) s = (.ok (), t) ∧ Consumes ns s t := by
  rw [hg.result] at hk
  subst hu
  have hqueue : t.engine.queue = some q := hg.within.queue
  have hsource : (placed due t).engine.source = t.engine.source := by cases due <;> rfl
  have hsink' : (placed due t).engine.sink = t.engine.sink := by cases due <;> rfl
  have hp : perform (consume env) s = (.ok (), placed due t) := by rw [hstep, perform_handle hg]
  refine ⟨ns, placed due t, hp, ?_, hsource.trans hg.within.source, ?_, ?_, ?_, ?_, vs, ?_⟩
  · rw [notices_placed]
    exact hg.told
  · cases due <;> rfl
  · cases due <;> simp [placed, hqueue]
  · rw [waiting_placed, waiting, hqueue]
    exact hstop
  · rw [hsink', hk.sink]
    exact hsink
  · rw [sinkCalls, hsink']
    exact hk.calls

/-- **A step of the consumer.** -/
theorem consumes_consume [Drain κ] (hq : env.Quiet) (hact : isActive s.engine.consumer) (hqueue : s.engine.queue.isSome)
    (hstop : .stop ∉ waiting s) (hsink : s.engine.sink.isSome) :
    ∃ ns t, perform (consume env) s = (.ok (), t) ∧ Consumes ns s t := by
  obtain ⟨⟨items, n⟩, hitems⟩ := Option.isSome_iff_exists.1 hqueue
  have hwaiting : waiting s = items := by rw [waiting, hitems]; rfl
  rw [hwaiting] at hstop
  cases hc : s.engine.consumer with
  | waiting =>
    have htake : perform (consume env) s = perform (take env) s := by
      rw [consume, perform_bind_ok (perform_get s), hc]
    rw [take, perform_bind_ok (perform_get s), hitems] at htake
    cases items with
    | nil =>
      refine ⟨[], s, htake, (List.append_nil _).symm, rfl, hact, hqueue, ?_, hsink, [], (List.append_nil _).symm⟩
      rw [hwaiting]
      exact hstop
    | cons item rest =>
      obtain ⟨hitem, hrest⟩ := not_or.1 (mt List.mem_cons.2 hstop)
      let popped : Session σ (Recorded κ) := { s with engine.queue := some ⟨rest, n⟩ }
      cases item with
      | stop => exact absurd rfl hitem
      | event v =>
        have hbegin : perform (consume env) s = perform (handle env (beginEvent env v)) popped := htake
        obtain ⟨due, ns, t, hg⟩ := (confined_beginEvent hq v).gives popped
        exact consumes_piece [] rfl hbegin hsink hrest hg (keeps_beginEvent env v popped)
      | finished =>
        have hbegin : perform (consume env) s = perform (handle env (beginFlush env)) popped := htake
        obtain ⟨due, ns, t, hg⟩ := (confined_beginFlush hq).gives popped
        refine consumes_piece [] rfl hbegin hsink hrest hg ?_
        exact Leads.bind Leads.get (fun _ => keeps_flush env _) popped
  | writing v next =>
    have hwrite : perform (consume env) s = perform (handle env (deliver env v >>= fun _ => resume env next)) s := by
      rw [consume, perform_bind_ok (perform_get s), hc]
      rfl
    obtain ⟨t, ht, -⟩ := gives_deliver hq v s
    obtain ⟨due, ns, u, hu⟩ := (confined_resume hq next).gives t
    have hsame : s = { s with engine.queue := some ⟨items, n⟩ } := by rw [← hitems]
    refine consumes_piece [v] hsame hwrite hsink hstop (ht.bind hu) ?_
    exact (keeps_deliver env v hsink).bind fun _ => keeps_resume env next
  | _ =>
    rw [hc] at hact
    cases hact

end

/-! ### The phases of a start -/

namespace Attempt

/-- What a start waits for. -/
inductive Waits (s : Session σ (Recorded κ)) : EngineCall → Prop where
  /-- For the source, while the consumer is at work. -/
  | source (hact : isActive s.engine.consumer) (hqueue : s.engine.queue.isSome) (hstop : .stop ∉ waiting s) :
      Waits s .startingSource
  /-- For the consumer that was called off, since the source has failed to start. -/
  | consumer (type : Text) (g : Failure) (hconsumer : s.engine.consumer = .cancelled) :
      Waits s (.leavingConsumer (startFailure type g))
  /-- For the sink to be closed. -/
  | sink (type : Text) (g : Failure) (hconsumer : s.engine.consumer = .cancelled) :
      Waits s (.abandoningSink (startFailure type g))

/-- A start waits, and its sink is open: nobody has closed it since it was made. -/
structure Underway (env : Environment σ (Recorded κ)) (s : Session σ (Recorded κ)) (c : Attempt σ κ)
    (call : EngineCall) : Prop where
  /-- What the start waits for. -/
  waits : Waits c.session call
  /-- There is a source. -/
  source : c.session.engine.source.isSome
  /-- There is a sink, which was made for the start. -/
  sink : ∃ r drain vs, c.session.engine.sink = some r ∧ c.sink = some r ∧ Made env s.world drain ∧
    r.calls = drain.calls ++ List.map SinkCall.write vs
  /-- The start has told nothing. -/
  said : c.said = []
  /-- Nobody was told that the engine runs. -/
  notStarted : .engine .started ∉ c.aside

/-- What becomes of the sink of a start that fails, and what the start tells. -/
inductive SinkReleased [Drain κ] (env : Environment σ (Recorded κ)) (s : Session σ (Recorded κ)) (c : Attempt σ κ)
    (f : Failure) : Prop where
  /-- There never was one, and the start tells how it failed. -/
  | never (hunmade : Unmade env s.world f) (hsink : c.sink = none) (hsaid : c.said = [.engine (.error f)])
  /-- It was closed once, after all writes; the start tells if that failed, and then how the start itself did. -/
  | closed {drain r k : Recorded κ} {vs : List Value} {host host' : Host} {result : Except Failure Unit} {type : Text}
      {g : Failure} (hmade : Made env s.world drain) (hfailure : f = startFailure type g)
      (hopen : r.calls = drain.calls ++ vs.map .write) (hclose : perform Drain.close (r, host) = (result, k, host'))
      (hsink : c.sink = some k) (hcalls : k.calls = drain.calls ++ vs.map .write ++ [.close])
      (hsaid : c.said = closeNotices result ++ [.engine (.error f)])

/-- Nothing is left of a start that has failed. -/
structure LeftClean [Drain κ] (env : Environment σ (Recorded κ)) (s : Session σ (Recorded κ)) (c : Attempt σ κ)
    (f : Failure) : Prop where
  /-- The kind of the failure. -/
  kind : f.name ∈ startFailures
  /-- The engine is as before the start. -/
  engine : c.session.engine.Unstarted
  /-- The sink was released. -/
  sink : SinkReleased env s c f
  /-- Nobody was told that the engine runs. -/
  notStarted : .engine .started ∉ c.said ++ c.aside

/-- How far a start has come. -/
inductive Phase [Drain κ] (env : Environment σ (Recorded κ)) (s : Session σ (Recorded κ)) (c : Attempt σ κ) : Prop where
  /-- It has failed. -/
  | failed {f : Failure} (h : c.outcome = .error f) (hclean : LeftClean env s c f)
  /-- It waits. -/
  | waits {call : EngineCall} (h : c.outcome = .ok (some call)) (hunderway : Underway env s c call)
  /-- The engine runs. -/
  | started (h : c.outcome = .ok none)

/-- What stays in the engine of a start that has failed, whatever comes: no event is processed any more. -/
structure Dormant (c c' : Attempt σ κ) : Prop where
  /-- The outcome is the same. -/
  outcome : c'.outcome = c.outcome
  /-- The sink is the same. -/
  sink : c'.sink = c.sink
  /-- The start tells nothing more. -/
  said : c'.said = c.said
  /-- The buffer is the same. -/
  buffer : c'.session.engine.buffer = c.session.engine.buffer
  /-- The spilled values are the same. -/
  spill : c'.session.engine.spill = c.session.engine.spill
  /-- No event is received. -/
  received : eventsReceived c'.session = eventsReceived c.session
  /-- Nobody is told what became of an event. -/
  progress : c'.aside.filter isProgress = c.aside.filter isProgress

instance : IsPreorder (Attempt σ κ) Dormant where
  refl _ := ⟨rfl, rfl, rfl, rfl, rfl, rfl, rfl⟩
  trans _ _ _ h h' :=
    ⟨h'.outcome.trans h.outcome, h'.sink.trans h.sink, h'.said.trans h.said, h'.buffer.trans h.buffer,
      h'.spill.trans h.spill, h'.received.trans h.received, h'.progress.trans h.progress⟩

theorem not_started_of_isError {n : Notice} (h : n.isError = true) : n ≠ .engine .started := by
  rintro rfl
  cases h

theorem not_progress_of_isError {n : Notice} (h : n.isError = true) : isProgress n = false := by
  rcases n with sig | a
  · cases sig <;> first | rfl | cases h
  · rfl

/-- Who is told nothing more about a start is not told that the engine runs. -/
theorem started_notMem {s t : Session σ κ} {ns : List Notice} (h : timesStarted t = timesStarted s)
    (htold : t.world.notices = s.world.notices ++ ns) : .engine .started ∉ ns := by
  unfold timesStarted at h
  rw [htold, List.count_append] at h
  exact List.count_eq_zero.1 (by omega)

section

variable {env : Environment σ (Recorded κ)} (hq : env.Quiet) {s : Session σ (Recorded κ)} {c c' : Attempt σ κ}

include hq

variable [Feed σ] [Drain κ]

omit [Feed σ] in
/-- **A start begins.** -/
theorem Phase.of_begun (hs : s.engine.Unstarted) : Phase env s (begun env s) := by
  rcases unmade_or_made env s.world with ⟨f, h⟩ | ⟨drain, h⟩
  · obtain ⟨t, ht, hunstarted, htold⟩ := perform_start_of_unmade hq hs h
    obtain ⟨source, hmake⟩ := perform_makeConnectors_of_unmade (s := entered .initializing s) h
    have hsaid : (Attempt.begun env s).said = [.engine (.error f)] := by
      rw [Attempt.begun, ht]
      exact news_eq htold
    have hsink : (Attempt.begun env s).sink = none := by
      rw [Attempt.begun, hmake]
      exact hs.sink
    refine .failed (f := f) ?_ ⟨h.name, ?_, .never h hsink hsaid, ?_⟩
    · rw [Attempt.begun, ht]
    · rw [Attempt.begun, ht]
      exact hunstarted
    · rw [hsaid]
      simp [Attempt.begun]
  · obtain ⟨t, hmake, hsource, hsink, hworld⟩ := perform_makeConnectors_of_made (s := entered .initializing s) h
    let started : Session σ (Recorded κ) :=
      { t with engine := { t.engine with queue := some ⟨[], 0⟩, ended := some false, consumer := .waiting } }
    have ht : perform (Engine.start env) s = (.ok (some .startingSource), started) := by
      rw [perform_start hs.state, hmake]
    have htold : started.world.notices = s.world.notices ++ [] := by
      rw [List.append_nil]
      exact congrArg World.notices hworld
    have hsaid : news s started = [] := news_eq htold
    have hbegun : Attempt.begun env s = ⟨started, .ok (some .startingSource), some drain, [], []⟩ := by
      rw [Attempt.begun, ht, hmake, hsink, hsaid]
    rw [hbegun]
    refine .waits rfl ⟨.source rfl rfl List.not_mem_nil, hsource, ⟨drain, drain, [], hsink, rfl, h, ?_⟩, rfl, ?_⟩
    · simp
    · simp

/-! ### After a failure -/

omit hq [Feed σ] in
theorem SinkReleased.of_eq {f : Failure} (h : SinkReleased env s c f) (hsink : c'.sink = c.sink)
    (hsaid : c'.said = c.said) : SinkReleased env s c' f := by
  cases h with
  | never hunmade hnone htold => exact .never hunmade (hsink.trans hnone) (hsaid.trans htold)
  | closed hmade hfailure hopen hclose hsome hcalls htold =>
    exact .closed hmade hfailure hopen hclose (hsink.trans hsome) hcalls (hsaid.trans htold)

/-- **Nothing happens after a failure**, but that the source may report failures of its own. -/
theorem dormant_step {f : Failure} (hout : c.outcome = .error f) (hc : c.session.engine.Unstarted)
    (hstep : Step env c c') :
    Dormant c c' ∧ c'.session.engine.Unstarted ∧ (.engine .started ∉ c.aside → .engine .started ∉ c'.aside) := by
  cases hstep with
  | source g sent =>
    obtain ⟨ns, t, ht, hsends⟩ := sends_sourceStep hq g sent c.session
    have hsink : t.engine.sink = none := (congrArg Core.sink hsends.core).trans hc.sink
    have hqueue : t.engine.queue = none := by
      rw [← Option.isNone_iff_eq_none, ← Option.not_isSome, hsends.queue, hc.queue]
      rfl
    have hsource : t.engine.source = none := by rw [hsends.source, hc.source]; rfl
    rw [ht, meanwhile, news_eq hsends.told, hsink]
    refine ⟨⟨rfl, rfl, rfl, ?_, ?_, hsends.received hc.queue, ?_⟩, ⟨?_, hsource, hsink, hqueue, ?_⟩, fun h => ?_⟩
    · exact congrArg (fun k : Core (Recorded κ) => k.store.buffer) hsends.core
    · exact congrArg (fun k : Core (Recorded κ) => k.store.spill) hsends.core
    · have hnone : ns.filter isProgress = [] := by
        rw [List.filter_eq_nil_iff]
        intro n hn
        rw [not_progress_of_isError (hsends.failures n hn)]
        exact Bool.false_ne_true
      rw [List.filter_append, hnone, List.append_nil]
    · exact hsends.state.trans hc.state
    · exact hsends.consumer.trans hc.consumer
    · rw [List.mem_append, not_or]
      exact ⟨h, fun hn => not_started_of_isError (hsends.failures _ hn) rfl⟩
  | consumer =>
    have hinactive : isActive c.session.engine.consumer = false := by rw [hc.consumer]; rfl
    rw [perform_consume_of_inactive hinactive, meanwhile_self (by rw [hc.sink]; rfl)]
    exact ⟨refl_of Dormant c, hc, id⟩
  | others w => exact ⟨⟨rfl, rfl, rfl, rfl, rfl, rfl, rfl⟩, ⟨hc.state, hc.source, hc.sink, hc.queue, hc.consumer⟩, id⟩
  | goOn call h => cases hout.symm.trans h

theorem LeftClean.step {f : Failure} (h : LeftClean env s c f) (hout : c.outcome = .error f) (hstep : Step env c c') :
    LeftClean env s c' f := by
  obtain ⟨hdormant, hc, hstarted⟩ := dormant_step hq hout h.engine hstep
  obtain ⟨hsaid, haside⟩ := not_or.1 (mt List.mem_append.2 h.notStarted)
  refine ⟨h.kind, hc, h.sink.of_eq hdormant.sink hdormant.said, ?_⟩
  rw [hdormant.said, List.mem_append, not_or]
  exact ⟨hsaid, hstarted haside⟩

/-! ### While a start waits -/

omit [Feed σ] [Drain κ] in
/-- The source acts while a start waits. -/
theorem Underway.source_step {call : EngineCall} (h : Underway env s c call) (f : Source σ → Source σ)
    (sent : Option SourceSignal) :
    Underway env s (c.meanwhile (perform (sourceStep env f sent) c.session).2) call := by
  obtain ⟨ns, t, ht, hsends⟩ := sends_sourceStep hq f sent c.session
  obtain ⟨r, drain, vs, hr, -, hmade, hcalls⟩ := h.sink
  have hsink : t.engine.sink = some r := (congrArg Core.sink hsends.core).trans hr
  rw [ht, meanwhile, news_eq hsends.told, hsink]
  refine ⟨?_, ?_, ⟨r, drain, vs, hsink, rfl, hmade, hcalls⟩, h.said, ?_⟩
  · cases h.waits with
    | source hact hqueue hstop =>
      refine .source ?_ ?_ (hsends.noStop hstop)
      · rw [hsends.consumer]
        exact hact
      · rw [hsends.queue]
        exact hqueue
    | consumer type g hconsumer => exact .consumer type g (hsends.consumer.trans hconsumer)
    | sink type g hconsumer => exact .sink type g (hsends.consumer.trans hconsumer)
  · rw [hsends.source, Option.isSome_map]
    exact h.source
  · rw [List.mem_append, not_or]
    exact ⟨h.notStarted, fun hn => not_started_of_isError (hsends.failures _ hn) rfl⟩

omit [Feed σ] in
/-- The consumer acts while a start waits. -/
theorem Underway.consumer_step {call : EngineCall} (h : Underway env s c call) :
    Underway env s (c.meanwhile (perform (consume env) c.session).2) call := by
  obtain ⟨r, drain, vs, hr, hghost, hmade, hcalls⟩ := h.sink
  have hidle : isActive c.session.engine.consumer = false →
      Underway env s (c.meanwhile (perform (consume env) c.session).2) call := by
    intro hinactive
    rw [perform_consume_of_inactive hinactive, meanwhile_self (by rw [hr, hghost]; rfl)]
    exact h
  cases h.waits with
  | source hact hqueue hstop =>
    obtain ⟨ns, t, ht, hconsumes⟩ := consumes_consume hq hact hqueue hstop (by rw [hr]; rfl)
    have hstill := still_consume env c.session
    rw [ht] at hstill
    obtain ⟨k, hk⟩ := Option.isSome_iff_exists.1 hconsumes.sink
    obtain ⟨written, hwritten⟩ := hconsumes.written
    rw [ht, meanwhile, news_eq hconsumes.told, hk]
    refine ⟨.source hconsumes.active hconsumes.queue hconsumes.noStop, ?_,
      ⟨k, drain, vs ++ written, hk, rfl, hmade, ?_⟩, h.said, ?_⟩
    · rw [hconsumes.source]
      exact h.source
    · simp only [sinkCalls, hk, hr, Option.map_some, Option.getD_some] at hwritten
      rw [hwritten, hcalls, List.map_append, List.append_assoc]
    · rw [List.mem_append, not_or]
      exact ⟨h.notStarted, started_notMem hstill.started hconsumes.told⟩
  | consumer type g hconsumer => exact hidle (by rw [hconsumer]; rfl)
  | sink type g hconsumer => exact hidle (by rw [hconsumer]; rfl)

omit hq [Feed σ] [Drain κ] in
/-- What a start waits for is a matter of the engine alone. -/
theorem Waits.of_engine {call : EngineCall} {t u : Session σ (Recorded κ)} (h : Waits t call)
    (he : u.engine = t.engine) : Waits u call := by
  obtain ⟨e, w⟩ := t
  obtain ⟨e', w'⟩ := u
  obtain rfl : e' = e := he
  cases h with
  | source hact hqueue hstop => exact .source hact hqueue hstop
  | consumer type g hconsumer => exact .consumer type g hconsumer
  | sink type g hconsumer => exact .sink type g hconsumer

omit hq in
/-- What a piece of a start makes of it, if the start has told nothing before. -/
theorem goOn_eq {call : EngineCall} {r : Except Failure (Option EngineCall)} {t : Session σ (Recorded κ)}
    {k : Option (Recorded κ)} {ns : List Notice} (hp : perform (proceed env call) c.session = (r, t))
    (hk : sinkIn env c.session call = k) (hsaid : c.said = [])
    (htold : t.world.notices = c.session.world.notices ++ ns) :
    c.goOn env call = { c with session := t, outcome := r, sink := k, said := ns } := by
  rw [Attempt.goOn, hp, hk, hsaid, news_eq htold, List.nil_append]

/-- **A start goes on.** -/
theorem Underway.goOn {call : EngineCall} (h : Underway env s c call) : Phase env s (c.goOn env call) := by
  obtain ⟨r, drain, vs, hr, hghost, hmade, hcalls⟩ := h.sink
  cases h.waits with
  | source hact hqueue hstop =>
    obtain ⟨source, hsource⟩ := Option.isSome_iff_exists.1 h.source
    cases hg : (Source.start source).1 with
    | ok _ => exact .started (perform_startingSource_ok hq hsource hg)
    | error g =>
      rw [goOn_eq (perform_startingSource_error hsource hact hg) rfl h.said (List.append_nil _).symm]
      exact .waits rfl ⟨.consumer _ g rfl, rfl, ⟨r, drain, vs, hr, hr, hmade, hcalls⟩, rfl, h.notStarted⟩
  | consumer type g hconsumer =>
    have hstep : perform (proceed env (.leavingConsumer (startFailure type g))) c.session =
        (.ok (some (.abandoningSink (startFailure type g))), c.session) :=
      perform_leavingConsumer _ hconsumer (by rw [hr]; rfl)
    rw [goOn_eq hstep rfl h.said (List.append_nil _).symm]
    exact .waits rfl ⟨.sink type g hconsumer, h.source, ⟨r, drain, vs, hr, hr, hmade, hcalls⟩, rfl, h.notStarted⟩
  | sink type g hconsumer =>
    -- the sink is closed here, and the engine lets go of it
    obtain ⟨t, ht, hunstarted, htold⟩ := perform_abandoningSink hq (startFailure type g) hr
    obtain ⟨u, hu, hk, -⟩ := perform_closeSink hq hr
    rcases hclose : perform Drain.close (r, c.session.world.host) with ⟨result, k, host⟩
    have hrecorded : k.calls = r.calls ++ [.close] := by
      have hpassing := Recorded.perform_passing .close Drain.close r c.session.world.host
      have hk : k = _ := congrArg (fun p => p.2.1) (hclose.symm.trans hpassing)
      rw [hk]
    rw [hclose] at hk htold
    have hsink : sinkIn env c.session (.abandoningSink (startFailure type g)) = some k := by
      rw [sinkIn, hu]
      exact hk
    rw [goOn_eq ht hsink h.said htold]
    refine .failed rfl ⟨name_startFailure type g, hunstarted, ?_, ?_⟩
    · exact .closed hmade rfl hcalls hclose rfl (by rw [hrecorded, hcalls]) rfl
    · have hcloses : .engine .started ∉ closeNotices result := by cases result <;> simp [closeNotices]
      simp only [List.mem_append, not_or]
      exact ⟨⟨hcloses, by simp⟩, h.notStarted⟩

/-! ### Every start -/

/-- **Every step keeps a start in a phase**, or leads it to the next one. -/
theorem Phase.step (h : Phase env s c) (hstep : Step env c c') : Phase env s c' := by
  cases h with
  | failed hout hclean =>
    obtain ⟨hdormant, -⟩ := dormant_step hq hout hclean.engine hstep
    exact .failed (hdormant.outcome.trans hout) (hclean.step hq hout hstep)
  | waits hout hunderway =>
    cases hstep with
    | source f sent => exact .waits hout (hunderway.source_step hq f sent)
    | consumer => exact .waits hout (hunderway.consumer_step hq)
    | others w =>
      obtain ⟨hwaits, hsource, hsink, hsaid, hnot⟩ := hunderway
      exact .waits hout ⟨hwaits.of_engine rfl, hsource, hsink, hsaid, hnot⟩
    | goOn call hcall =>
      cases hout.symm.trans hcall
      exact hunderway.goOn hq
  | started hout =>
    cases hstep with
    | source | consumer | others => exact .started hout
    | goOn call hcall => cases hout.symm.trans hcall

theorem Phase.of_reaches (hs : s.engine.Unstarted) (hc : Reaches env (begun env s) c) : Phase env s c := by
  induction hc with
  | refl => exact Phase.of_begun hq hs
  | tail _ hstep ih => exact ih.step hq hstep

/-- What a start that waits comes to next. Once the source has failed to start, so does the engine. -/
structure HeadsForFailure [Feed σ] [Drain κ] (env : Environment σ (Recorded κ)) (c : Attempt σ κ) : Prop where
  /-- It waits for the source, which may fail to start. -/
  source : c.outcome = .ok (some .startingSource) → ∃ source, c.session.engine.source = some source ∧
    ∀ g, (Source.start source).1 = .error g → (c.goOn env .startingSource).outcome =
      .ok (some (.leavingConsumer (startFailure (sourceType c.session.world) g)))
  /-- It waits for the consumer that was called off. -/
  consumer : ∀ f, c.outcome = .ok (some (.leavingConsumer f)) →
    (c.goOn env (.leavingConsumer f)).outcome = .ok (some (.abandoningSink f))
  /-- It waits for the sink to be closed. -/
  sink : ∀ f, c.outcome = .ok (some (.abandoningSink f)) → (c.goOn env (.abandoningSink f)).outcome = .error f

theorem Phase.headsForFailure (h : Phase env s c) : HeadsForFailure env c := by
  have hunder : ∀ call, c.outcome = .ok (some call) → Underway env s c call := by
    intro call hcall
    cases h with
    | failed hout | started hout => cases hout.symm.trans hcall
    | waits hout hunderway =>
      cases hout.symm.trans hcall
      exact hunderway
  refine ⟨fun hcall => ?_, fun f hcall => ?_, fun f hcall => ?_⟩
  all_goals
    have hunderway := hunder _ hcall
    obtain ⟨r, -, -, hr, -⟩ := hunderway.sink
    have hwaits := hunderway.waits
  · obtain ⟨source, hsource⟩ := Option.isSome_iff_exists.1 hunderway.source
    cases hwaits with
    | source hact =>
      refine ⟨source, hsource, fun g hg => ?_⟩
      rw [Attempt.goOn, perform_startingSource_error hsource hact hg]
  · cases hwaits with
    | consumer type g hconsumer => rw [Attempt.goOn, perform_leavingConsumer _ hconsumer (by rw [hr]; rfl)]
  · obtain ⟨t, ht, -⟩ := perform_abandoningSink hq f hr
    rw [Attempt.goOn, ht]

/-- **What holds of every start**, however far it has come. -/
structure Accounted (env : Environment σ (Recorded κ)) (s : Session σ (Recorded κ)) (c : Attempt σ κ) : Prop where
  /-- It has failed at once if the connectors could not be made. -/
  unmade : ∀ f, Unmade env s.world f → (begun env s).outcome = .error f
  /-- It fails if the source fails to start. -/
  heads : HeadsForFailure env c
  /-- Nothing is left of it once it has failed. -/
  clean : ∀ f, c.outcome = .error f → LeftClean env s c f
  /-- Nothing is done about events after that. -/
  dormant : ∀ f c', c.outcome = .error f → Reaches env c c' → Dormant c c'

theorem accounted_of_reaches (hs : s.engine.Unstarted) (hc : Reaches env (begun env s) c) : Accounted env s c := by
  have hphase := Phase.of_reaches hq hs hc
  have hclean : ∀ f, c.outcome = .error f → LeftClean env s c f := by
    intro f hout
    cases hphase with
    | failed hfailed hclean =>
      cases hfailed.symm.trans hout
      exact hclean
    | waits hwaits | started hwaits => cases hwaits.symm.trans hout
  refine ⟨fun f h => ?_, hphase.headsForFailure hq, hclean, fun f c' hout hreach => ?_⟩
  · obtain ⟨t, ht, -⟩ := perform_start_of_unmade hq hs h
    rw [begun, ht]
  · have hstays : Dormant c c' ∧ c'.session.engine.Unstarted := by
      induction hreach with
      | refl => exact ⟨refl_of Dormant c, (hclean f hout).engine⟩
      | tail _ hstep ih =>
        obtain ⟨hdormant, hunstarted, -⟩ := dormant_step hq (ih.1.outcome.trans hout) ih.2 hstep
        exact ⟨trans_of Dormant ih.1 hdormant, hunstarted⟩
    exact hstays.1

end

end Attempt

end Engine

end EventPipeline
