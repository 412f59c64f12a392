import EventPipeline.Proofs.Engine.FailedStart
import EventPipeline.Proofs.Pipeline.OneEngine

/-!
# A pipeline whose start fails is as before

A start of a pipeline locks the definition, makes an engine and starts that. `Attempt` is such a start as far as it
has come; meanwhile the sources and consumers of all engines act, and somebody tries to change the definition. Whatever
happens, the start of the pipeline comes to just what the start of its engine comes to (`Tracks`): a failure of the
engine's start is one of the pipeline's start. Then the definition is unlocked and otherwise as before, and the
pipeline has no engine (`failed_start`).

One start of the pipeline is looked at, and no stop. If another start overlaps with it, that one may have left its own
engine behind, whose definition is unlocked by the failure (`two_engines`).
-/

namespace EventPipeline

open Relation (ReflTransGen)
open Engine (sourceStep Unstarted Own)

variable {σ κ : Type}

namespace Pipeline

/-! ### Attempts -/

/-- A start of a pipeline, as far as it has come. -/
structure Attempt (σ κ : Type) where
  /-- The pipeline. -/
  pipeline : Pipeline σ (Recorded κ)
  /-- What has become of the start: it has failed, or it waits at a call, or it has come to its end. -/
  outcome : Except Failure (Option PipelineCall)

namespace Attempt

variable [Feed σ] [Drain κ] (env : Environment σ (Recorded κ))

/-- A start begins. -/
def begun (options : EngineOptions) (p : Pipeline σ (Recorded κ)) : Attempt σ κ where
  pipeline := (perform (Pipeline.start env options) p).2
  outcome := (perform (Pipeline.start env options) p).1

/-- A start goes on from where it waited. -/
def goOn (call : PipelineCall) (c : Attempt σ κ) : Attempt σ κ where
  pipeline := (perform (proceed env call) c.pipeline).2
  outcome := (perform (proceed env call) c.pipeline).1

/-- What may happen to a start. -/
inductive Step : Attempt σ κ → Attempt σ κ → Prop where
  /-- The source of an engine changes in any way, and sends a signal or none. -/
  | source (c : Attempt σ κ) (j : Nat) (f : Source σ → Source σ) (sent : Option SourceSignal) :
      Step c { c with pipeline := (perform (onEngine j () (sourceStep env f sent)) c.pipeline).2 }
  /-- The consumer of an engine acts. -/
  | consumer (c : Attempt σ κ) (j : Nat) :
      Step c { c with pipeline := (perform (onEngine j () (Engine.consume env)) c.pipeline).2 }
  /-- Somebody tries to change the definition while the start waits. -/
  | build (c : Attempt σ κ) (b : BuilderCall) (call : PipelineCall) (h : c.outcome = .ok (some call)) :
      Step c { c with pipeline := (perform (define b.run) c.pipeline).2 }
  /-- The start goes on. -/
  | goOn (c : Attempt σ κ) (call : PipelineCall) (h : c.outcome = .ok (some call)) : Step c (c.goOn env call)

/-- Any number of steps. -/
abbrev Reaches : Attempt σ κ → Attempt σ κ → Prop := ReflTransGen (Step env)

end Attempt

/-! ### The start of the engine -/

/-- The definition while a pipeline is being started. -/
def lockedDefinition (p : Pipeline σ κ) : Definition := { p.world.definition with locked := true }

section

variable [Feed σ] [Drain κ] (env : Environment σ (Recorded κ))

/-- The start of a pipeline is where the start of the engine is that it has made. -/
structure Tracks (p : Pipeline σ (Recorded κ)) (c : Attempt σ κ) (s : Session σ (Recorded κ))
    (a : Engine.Attempt σ κ) : Prop where
  /-- Nothing had been made for the engine. -/
  unstarted : s.engine.Unstarted
  /-- The definition was locked, and otherwise as before. -/
  definition : s.world.definition = p.lockedDefinition
  /-- The start of the engine has come so far. -/
  reaches : Engine.Attempt.Reaches env (Engine.Attempt.begun env s) a
  /-- The engine is the latest one. -/
  engine : c.pipeline.engines[p.engines.length]? = some a.session.engine
  /-- Both act on the same. -/
  world : a.session.world = c.pipeline.world
  /-- Both starts have come to the same. -/
  outcome : c.outcome = a.outcome.map (Option.map (.starting p.engines.length))

/-- Nothing is left of a start in the pipeline itself. -/
structure Undone (p : Pipeline σ (Recorded κ)) (c : Attempt σ κ) : Prop where
  /-- The definition is as before, and so it is unlocked. -/
  definition : c.pipeline.world.definition = p.world.definition
  /-- The pipeline has no engine. -/
  current : c.pipeline.current = none

/-- No engine was started: the definition is not complete, or no engine could be made for it. -/
def Refused (options : EngineOptions) (p : Pipeline σ (Recorded κ)) (f : Failure) : Prop :=
  p.world.definition.validate = .error f ∨
    (Engine.create p.world.definition.stages p.world.host.files.working options.config options.settings :
      Except Failure (Engine σ (Recorded κ))) = .error f

/-- How far the start of a pipeline has come. -/
inductive StartPhase (options : EngineOptions) (p : Pipeline σ (Recorded κ)) (c : Attempt σ κ) : Prop where
  /-- No engine was started. -/
  | refused {f : Failure} (hout : c.outcome = .error f) (hundone : Undone p c) (hrefused : Refused options p f)
  /-- The start of the engine has failed. -/
  | failed {f : Failure} {s : Session σ (Recorded κ)} {a : Engine.Attempt σ κ} (hout : c.outcome = .error f)
      (hundone : Undone p c) (htracks : Tracks env p c s a)
  /-- The start of the engine waits. -/
  | waits {call : PipelineCall} {s : Session σ (Recorded κ)} {a : Engine.Attempt σ κ}
      (hout : c.outcome = .ok (some call)) (hlocked : c.pipeline.world.definition = p.lockedDefinition)
      (hcurrent : c.pipeline.current = none) (htracks : Tracks env p c s a)
  /-- The engine runs. -/
  | started {s : Session σ (Recorded κ)} {a : Engine.Attempt σ κ} (hout : c.outcome = .ok none)
      (htracks : Tracks env p c s a)

variable {env} {options : EngineOptions} {p q : Pipeline σ (Recorded κ)} {c c' : Attempt σ κ}
  {s : Session σ (Recorded κ)} {a : Engine.Attempt σ κ}

/-- The start of the engine is told what has become of the pipeline. -/
theorem exists_tracks (hs : s.engine.Unstarted) (hdefinition : s.world.definition = p.lockedDefinition)
    (hreach : Engine.Attempt.Reaches env (Engine.Attempt.begun env s) a)
    (he : c.pipeline.engines[p.engines.length]? = some a.session.engine)
    (hout : c.outcome = a.outcome.map (Option.map (.starting p.engines.length))) : ∃ a', Tracks env p c s a' :=
  ⟨{ a with session.world := c.pipeline.world }, hs, hdefinition, hreach.tail (.others a _), he, rfl, hout⟩

/-! ### Meanwhile -/

omit [Feed σ] [Drain κ] in
theorem unchanged_onEngine {action : EngineAction σ (Recorded κ) Unit} (hown : Leads Own action) (j : Nat)
    (q : Pipeline σ (Recorded κ)) :
    (perform (onEngine j () action) q).2.world.definition = q.world.definition ∧
      (perform (onEngine j () action) q).2.current = q.current := by
  cases he : q.engines[j]? with
  | none =>
    rw [perform_onEngine_none he]
    exact ⟨rfl, rfl⟩
  | some e =>
    rw [perform_onEngine he]
    exact ⟨(hown ⟨e, q.world⟩).definition, rfl⟩

/-- An engine acts; if it is the one that is being started, so does it in its start. -/
theorem Tracks.background {action : EngineAction σ (Recorded κ) Unit} (h : Tracks env p c s a)
    (hact : ∀ a : Engine.Attempt σ κ, Engine.Attempt.Step env a (a.meanwhile (perform action a.session).2)) (j : Nat) :
    ∃ a', Tracks env p { c with pipeline := (perform (onEngine j () action) c.pipeline).2 } s a' := by
  cases he : c.pipeline.engines[j]? with
  | none =>
    rw [perform_onEngine_none he]
    exact ⟨a, h⟩
  | some e =>
    rw [perform_onEngine he]
    by_cases hj : j = p.engines.length
    · subst hj
      have hsession : (⟨e, c.pipeline.world⟩ : Session σ (Recorded κ)) = a.session := by
        cases he.symm.trans h.engine
        rw [← h.world]
      obtain ⟨hlt, -⟩ := List.getElem?_eq_some_iff.1 he
      rw [hsession]
      exact ⟨_, h.unstarted, h.definition, h.reaches.tail (hact a), List.getElem?_set_self hlt, rfl, h.outcome⟩
    · refine exists_tracks h.unstarted h.definition h.reaches ?_ h.outcome
      rw [withSession, List.getElem?_set_ne hj]
      exact h.engine

theorem StartPhase.background {action : EngineAction σ (Recorded κ) Unit} (h : StartPhase env options p c)
    (hown : Leads Own action)
    (hact : ∀ a : Engine.Attempt σ κ, Engine.Attempt.Step env a (a.meanwhile (perform action a.session).2)) (j : Nat) :
    StartPhase env options p { c with pipeline := (perform (onEngine j () action) c.pipeline).2 } := by
  obtain ⟨hdefinition, hcurrent⟩ := unchanged_onEngine hown j c.pipeline
  have hundone : Undone p c → Undone p { c with pipeline := (perform (onEngine j () action) c.pipeline).2 } :=
    fun hu => ⟨hdefinition.trans hu.definition, hcurrent.trans hu.current⟩
  cases h with
  | refused hout hu hrefused => exact .refused hout (hundone hu) hrefused
  | failed hout hu htracks =>
    obtain ⟨a', htracks'⟩ := htracks.background hact j
    exact .failed hout (hundone hu) htracks'
  | waits hout hlocked hnone htracks =>
    obtain ⟨a', htracks'⟩ := htracks.background hact j
    exact .waits hout (hdefinition.trans hlocked) (hcurrent.trans hnone) htracks'
  | started hout htracks =>
    obtain ⟨a', htracks'⟩ := htracks.background hact j
    exact .started hout htracks'

omit [Feed σ] [Drain κ] in
/-- A locked definition stays as it is. -/
theorem perform_define_of_locked {q : Pipeline σ κ} (h : q.world.definition.locked = true) (b : BuilderCall) :
    (perform (define b.run) q).2 = q := by
  obtain ⟨f, hf, -⟩ := Definition.refuses_of_locked h b
  unfold define
  rw [perform_bind_ok (perform_get q), hf]
  rfl

/-! ### Pieces of the start -/

omit [Feed σ] [Drain κ] in
theorem unlocked_lockedDefinition (h : p.world.definition.locked = false) :
    { p.lockedDefinition with locked := false } = p.world.definition := by
  rw [lockedDefinition, ← h]

/-- **A piece of the start** of the engine. -/
theorem StartPhase.of_piece (hq : env.Quiet) {e : Engine σ (Recorded κ)}
    {action : EngineAction σ (Recorded κ) (Option EngineCall)} (hunlocked : p.world.definition.locked = false)
    (he : q.engines[p.engines.length]? = some e) (hdefinition : q.world.definition = p.lockedDefinition)
    (hcurrent : q.current = none) (hown : Leads Own action) (hs : s.engine.Unstarted)
    (hsdefinition : s.world.definition = p.lockedDefinition)
    (hreach : Engine.Attempt.Reaches env (Engine.Attempt.begun env s) a)
    (hperform : perform action ⟨e, q.world⟩ = (a.outcome, a.session)) :
    StartPhase env options p
      ⟨(perform (attempt (onEngine p.engines.length none action) >>= afterStart env p.engines.length) q).2,
        (perform (attempt (onEngine p.engines.length none action) >>= afterStart env p.engines.length) q).1⟩ := by
  obtain ⟨hlt, -⟩ := List.getElem?_eq_some_iff.1 he
  have hlocked : a.session.world.definition = p.lockedDefinition := by
    have ht := hown ⟨e, q.world⟩
    rw [hperform] at ht
    exact ht.definition.trans hdefinition
  have htracks : ∀ c : Attempt σ κ, c.pipeline.engines = q.engines.set p.engines.length a.session.engine →
      c.outcome = a.outcome.map (Option.map (.starting p.engines.length)) → ∃ a', Tracks env p c s a' := by
    intro c hengines hout
    refine exists_tracks hs hsdefinition hreach ?_ hout
    rw [hengines, List.getElem?_set_self hlt]
  rw [attempt, perform_bind_ok (perform_lift _ q), perform_onEngine he, hperform]
  rcases hout : a.outcome with f | _ | call
  all_goals rw [hout] at htracks
  · -- the definition is unlocked again
    obtain ⟨a', ha'⟩ := htracks
      ⟨{ q.withSession p.engines.length a.session with world.definition.locked := false }, .error f⟩ rfl rfl
    refine .failed rfl ⟨?_, hcurrent⟩ ha'
    rw [← unlocked_lockedDefinition hunlocked, ← hlocked]
    rfl
  · -- the engine runs, and becomes the current one
    let running : Pipeline σ (Recorded κ) :=
      { q.withSession p.engines.length a.session with current := some p.engines.length }
    have hafter : perform (afterStart env p.engines.length (.ok none)) (q.withSession p.engines.length a.session) =
        (.ok none, running.announced env .started) := by
      have hannounce : perform (announce env .started) running = (.ok (), running.announced env .started) := by
        rw [perform_announce, hq]
        rfl
      exact perform_bind_ok hannounce
    obtain ⟨a', ha'⟩ := htracks ⟨running.announced env .started, .ok none⟩ rfl rfl
    dsimp only
    rw [hafter]
    exact .started rfl ha'
  · obtain ⟨a', ha'⟩ := htracks
      ⟨q.withSession p.engines.length a.session, .ok (some (.starting p.engines.length call))⟩ rfl rfl
    exact .waits rfl hlocked hcurrent ha'

/-- **The start of a pipeline begins.** -/
theorem StartPhase.of_begun (hq : env.Quiet) (hcurrent : p.current = none)
    (hunlocked : p.world.definition.locked = false) : StartPhase env options p (Attempt.begun env options p) := by
  have hnone : p.current.isSome = false := by rw [hcurrent]; rfl
  unfold Attempt.begun Pipeline.start
  rw [perform_bind_ok (perform_get p), hnone]
  cases hvalid : p.world.definition.validate with
  | error f => exact .refused rfl ⟨rfl, hcurrent⟩ (.inl hvalid)
  | ok _ =>
    let asked : Pipeline σ (Recorded κ) := announced env .starting { p with world.definition.locked := true }
    have hlock : perform (lock true) p = (.ok ⟨⟩, { p with world.definition.locked := true }) := rfl
    have hannounce : perform (announce env .starting) { p with world.definition.locked := true } = (.ok (), asked) := by
      rw [perform_announce, hq]
      rfl
    simp only [Bool.false_eq_true, if_false]
    rw [perform_bind_ok hlock, perform_bind_ok hannounce, attempt, perform_bind_ok (perform_lift _ asked),
      perform_addEngine]
    cases he : (Engine.create asked.world.definition.stages asked.world.host.files.working options.config
        options.settings : Except Failure (Engine σ (Recorded κ))) with
    | error f =>
      refine .refused rfl ⟨?_, hcurrent⟩ (.inr he)
      exact unlocked_lockedDefinition hunlocked
    | ok e =>
      have hunstarted := Engine.unstarted_create he
      refine StartPhase.of_piece (s := ⟨e, asked.world⟩) (q := { asked with engines := p.engines ++ [e] }) hq hunlocked
        ?_ rfl hcurrent (Engine.compositional_own env).start hunstarted rfl .refl rfl
      exact List.getElem?_concat_length

/-- **The start of a pipeline goes on.** -/
theorem StartPhase.goOn (hq : env.Quiet) (hunlocked : p.world.definition.locked = false)
    (h : StartPhase env options p c) {call : PipelineCall} (hcall : c.outcome = .ok (some call)) :
    StartPhase env options p (c.goOn env call) := by
  cases h with
  | refused hout | failed hout | started hout => cases hout.symm.trans hcall
  | @waits _ s a hout hlocked hcurrent htracks =>
    have hboth := hcall.symm.trans htracks.outcome
    rcases haout : a.outcome with f | _ | ecall
    all_goals
      rw [haout] at hboth
      cases hboth
    have hgone : Engine.Attempt.Reaches env (Engine.Attempt.begun env s) (a.goOn env ecall) :=
      htracks.reaches.tail (.goOn a ecall haout)
    refine StartPhase.of_piece hq hunlocked htracks.engine hlocked hcurrent
      ((Engine.compositional_own env).proceed ecall) htracks.unstarted htracks.definition hgone ?_
    rw [← htracks.world]
    rfl

theorem StartPhase.step (hq : env.Quiet) (hunlocked : p.world.definition.locked = false)
    (h : StartPhase env options p c) (hstep : Attempt.Step env c c') : StartPhase env options p c' := by
  have hown := Engine.compositional_own env
  cases hstep with
  | source j f sent => exact h.background (hown.sourceStep f sent) (fun a => .source a f sent) j
  | consumer j => exact h.background hown.consume (fun a => .consumer a) j
  | build b call hcall =>
    cases h with
    | refused hout | failed hout | started hout => cases hout.symm.trans hcall
    | waits hout hlocked hcurrent htracks =>
      rw [perform_define_of_locked (by rw [hlocked]; rfl)]
      exact .waits hout hlocked hcurrent htracks
  | goOn call hcall => exact h.goOn hq hunlocked hcall

theorem StartPhase.of_reaches (hq : env.Quiet) (hcurrent : p.current = none)
    (hunlocked : p.world.definition.locked = false) (hc : Attempt.Reaches env (Attempt.begun env options p) c) :
    StartPhase env options p c := by
  induction hc with
  | refl => exact StartPhase.of_begun hq hcurrent hunlocked
  | tail _ hstep ih => exact ih.step hq hunlocked hstep

/-- **A failed start leaves nothing half open.** No subscriber fails, and nothing had been made for an engine before its
start. The source may change and send anything meanwhile, the consumer may act or be held up at a write, and others
may change what the engine acts on. Then (`Engine.Attempt.Accounted`):

* the start fails with a failure of configuration, of an unknown type or of a connector if its connectors cannot be
  made or the source fails to start;
* once it has failed, the engine is idle without source, sink, queue and consumer; the sink was closed once, after all
  writes, if it had been made; nobody was told that the engine runs; and the start has told its failure once, after the
  failure of the sink to close, if there was one;
* no event is processed any more, whatever comes.

The start of a pipeline that has no engine and is not locked comes to what the start of its engine comes to, unless the
definition is not complete or no engine can be made for it. Once it has failed, the definition is unlocked and
otherwise as before, and the pipeline has no engine. -/
theorem failed_start (hq : env.Quiet) :
    (∀ (s : Session σ (Recorded κ)) (a : Engine.Attempt σ κ), s.engine.Unstarted →
      Engine.Attempt.Reaches env (Engine.Attempt.begun env s) a → Engine.Attempt.Accounted env s a) ∧
    ∀ (options : EngineOptions) (p : Pipeline σ (Recorded κ)) (c : Attempt σ κ), p.current = none →
      p.world.definition.locked = false → Attempt.Reaches env (Attempt.begun env options p) c →
      (∀ f, c.outcome = .error f → Undone p c) ∧
        ((∃ f, c.outcome = .error f ∧ Refused options p f) ∨
          ∃ s a, Tracks env p c s a ∧ Engine.Attempt.Accounted env s a) := by
  refine ⟨fun s a hs ha => Engine.Attempt.accounted_of_reaches hq hs ha, fun options p c hcurrent hunlocked hc => ?_⟩
  have hphase := StartPhase.of_reaches hq hcurrent hunlocked hc
  have haccounted : ∀ s a, Tracks env p c s a → ∃ s a, Tracks env p c s a ∧ Engine.Attempt.Accounted env s a :=
    fun s a h => ⟨s, a, h, Engine.Attempt.accounted_of_reaches hq h.unstarted h.reaches⟩
  constructor
  · intro f hout
    cases hphase with
    | refused _ hundone | failed _ hundone => exact hundone
    | waits hwaits | started hwaits => cases hwaits.symm.trans hout
  · cases hphase with
    | refused hout _ hrefused => exact .inl ⟨_, hout, hrefused⟩
    | failed _ _ htracks | waits _ _ _ htracks | started _ htracks => exact .inr (haccounted _ _ htracks)

end

/-! ### A source without a client -/

/-- A source that cannot be started, as it has no client, and a sink in memory that keeps its calls. -/
def clientless : Environment KafkaSource (Recorded MemorySink) where
  registry :=
    { sources := [("kafka", fun _ _ => .ok ⟨"events", [], none, false, []⟩)]
      sinks := [("memory", fun _ config => (MemorySink.ofConfig config).map fun sink => ⟨sink, []⟩)] }
  subscriber := fun _ _ => .silent

/-- A pipeline with that source and that sink. -/
def unstartable : Pipeline KafkaSource (Recorded MemorySink) :=
  .ofDefinition ⟨some ⟨"kafka", []⟩, some ⟨"memory", []⟩, [], 1, false⟩ ⟨.empty "/work", [], []⟩ ⟨[]⟩

namespace Attempt

/-- The source of the first engine sends a signal. -/
def send (signal : SourceSignal) (c : Attempt KafkaSource MemorySink) : Attempt KafkaSource MemorySink :=
  { c with pipeline := (perform (onEngine 0 () (sourceStep clientless id (some signal))) c.pipeline).2 }

/-- The consumer of the first engine acts. -/
def consume (c : Attempt KafkaSource MemorySink) : Attempt KafkaSource MemorySink :=
  { c with pipeline := (perform (onEngine 0 () (Engine.consume clientless)) c.pipeline).2 }

/-- The first event is written, and the consumer is held up at the write of the second one. -/
def heldUp : Attempt KafkaSource MemorySink :=
  (((begun clientless plainOptions unstartable).send (.data (.int 1))).consume.consume.send (.data (.int 2))).consume

/-- The failure of the source to start. -/
def noClient : Failure := Engine.startFailure "kafka" Kafka.noClient

/-- The start has failed. -/
def failed : Attempt KafkaSource MemorySink :=
  heldUp.goOn clientless (.starting 0 .startingSource)
    |>.goOn clientless (.starting 0 (.leavingConsumer noClient))
    |>.goOn clientless (.starting 0 (.abandoningSink noClient))

end Attempt

/-- The engine of that pipeline, before its start. -/
def unstartableEngine : Session KafkaSource (Recorded MemorySink) where
  engine := { Engine.aboutToStart.engine with source := none }
  world := { unstartable.world with definition := unstartable.lockedDefinition }

/-- The source of the engine sends a signal. -/
def sendTo (signal : SourceSignal) (a : Engine.Attempt KafkaSource MemorySink) :
    Engine.Attempt KafkaSource MemorySink :=
  a.meanwhile (perform (sourceStep clientless id (some signal)) a.session).2

/-- The consumer of the engine acts. -/
def consumeIn (a : Engine.Attempt KafkaSource MemorySink) : Engine.Attempt KafkaSource MemorySink :=
  a.meanwhile (perform (Engine.consume clientless) a.session).2

/-- The same for the start of the engine alone. -/
def engineHeldUp : Engine.Attempt KafkaSource MemorySink :=
  let a := consumeIn (sendTo (.data (.int 1)) (Engine.Attempt.begun clientless unstartableEngine))
  consumeIn (sendTo (.data (.int 2)) (consumeIn a))

/-- The start of the engine has failed. -/
def engineFailed : Engine.Attempt KafkaSource MemorySink :=
  engineHeldUp.goOn clientless .startingSource
    |>.goOn clientless (.leavingConsumer Attempt.noClient)
    |>.goOn clientless (.abandoningSink Attempt.noClient)

/-- The second event is not written, and the sink is closed once. -/
theorem failed_start_without_client :
    Attempt.failed.outcome = .error Attempt.noClient ∧ Undone unstartable Attempt.failed ∧
      engineFailed.outcome = .error Attempt.noClient ∧ engineFailed.session.engine.Unstarted ∧
      engineFailed.sink.map Recorded.calls = some [.write (.int 1), .close] ∧
      engineFailed.said = [.engine (.error Attempt.noClient)] := by
  have hquiet : clientless.Quiet := fun _ _ => rfl
  obtain ⟨hengine, hpipeline⟩ := failed_start hquiet
  have hout : Attempt.failed.outcome = .error Attempt.noClient := by decide +kernel
  have hout' : engineFailed.outcome = .error Attempt.noClient := by decide +kernel
  have hheld : Attempt.Reaches clientless (Attempt.begun clientless plainOptions unstartable) Attempt.heldUp :=
    .tail (.tail (.tail (.tail (.single (.source _ 0 id _)) (.consumer _ 0)) (.consumer _ 0)) (.source _ 0 id _))
      (.consumer _ 0)
  have hfailed : Attempt.Reaches clientless Attempt.heldUp Attempt.failed := by
    refine .tail (.tail (.single (.goOn _ _ ?_)) (.goOn _ _ ?_)) (.goOn _ _ ?_)
    all_goals decide +kernel
  have hheld' : Engine.Attempt.Reaches clientless (Engine.Attempt.begun clientless unstartableEngine) engineHeldUp :=
    .tail (.tail (.tail (.tail (.single (.source _ id _)) (.consumer _)) (.consumer _)) (.source _ id _)) (.consumer _)
  have hfailed' : Engine.Attempt.Reaches clientless engineHeldUp engineFailed := by
    refine .tail (.tail (.single (.goOn _ _ ?_)) (.goOn _ _ ?_)) (.goOn _ _ ?_)
    all_goals decide +kernel
  have hundone := (hpipeline plainOptions unstartable _ rfl rfl (hheld.trans hfailed)).1 _ hout
  have hclean := (hengine unstartableEngine _ ⟨rfl, rfl, rfl, rfl, rfl⟩ (hheld'.trans hfailed')).clean _ hout'
  exact ⟨hout, hundone, hout', hclean.engine, by decide +kernel, by decide +kernel⟩

end Pipeline

end EventPipeline
