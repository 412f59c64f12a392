import EventPipeline.Pipeline.Lifecycle
import EventPipeline.Proofs.Engine.Resilience
import EventPipeline.Proofs.Engine.Turns
import EventPipeline.Proofs.Pipeline.Locking

/-!
# One engine at a time

Any number of starts and stops of a pipeline, cut in pieces where they wait, while the sources and consumers of its
engines act in between and its definition may be changed. If no start begins while another one is under way, at most
one engine lives at a time, and the definition refuses all changes while it does; if no stop begins while another one
is under way either, the pipeline announces at most once that it has stopped, and not before its engine has
(`one_engine`).

None of the conditions can be left out. A start and a stop look at the engine before they wait and do not look again:
* two starts that overlap make two engines, and the one that fails unlocks the definition of the other one
  (`two_engines`);
* a stop that overlaps with another one announces that the pipeline has stopped while it is still stopping
  (`stopped_too_soon`);
* a subscriber that fails on an error breaks the consumer down, and the stop that waits for it; the engine stays as it
  is then, and the next stop announces that the pipeline has stopped (`stopped_in_name_only`).
-/

namespace EventPipeline

open Relation (ReflTransGen)
open Engine (Background Own StartComes StopComes isStarting isStopping sourceStep fits)

variable {σ κ α β : Type}

/-- The engine is being started, runs, or is being stopped. -/
def Engine.isLive (e : Engine σ κ) : Bool :=
  match e.state with
  | .initializing | .running | .stopping => true
  | .idle | .stopped => false

/-- The engine is idle, and its consumer is well. -/
structure Engine.Resting (e : Engine σ κ) : Prop where
  /-- The engine is idle. -/
  state : e.state = .idle
  /-- The consumer is well. -/
  well : e.consumer.isWell = true

theorem Engine.Background.resting {e e' : Engine σ κ} (h : Background e e') (he : e.Resting) : e'.Resting :=
  ⟨h.state.trans he.state, h.well he.well⟩

namespace Pipeline

/-! ### Small steps -/

/-- How often it was announced that the pipeline has stopped. -/
def timesStopped (p : Pipeline σ κ) : Nat := p.world.notices.count (.pipeline .stopped)

/-- The pipeline after a step of one of its engines. -/
def withSession (i : Nat) (s : Session σ κ) (p : Pipeline σ κ) : Pipeline σ κ :=
  { p with engines := p.engines.set i s.engine, world := s.world }

theorem withSession_self {i : Nat} {e : Engine σ κ} {p : Pipeline σ κ} (he : p.engines[i]? = some e) :
    p.withSession i ⟨e, p.world⟩ = p := by
  obtain ⟨hi, rfl⟩ := List.getElem?_eq_some_iff.1 he
  simp [withSession]

/-- What comes of a step of an engine. -/
theorem perform_onEngine {p : Pipeline σ κ} {i : Nat} {e : Engine σ κ} (he : p.engines[i]? = some e) (otherwise : α)
    (action : EngineAction σ κ α) :
    perform (onEngine i otherwise action) p =
      ((perform action ⟨e, p.world⟩).1, p.withSession i (perform action ⟨e, p.world⟩).2) := by
  unfold onEngine
  rw [perform_bind_ok (perform_get p), he]
  dsimp only
  rcases h : perform action ⟨e, p.world⟩ with ⟨_ | _, s⟩
  all_goals
    unfold perform at h
    simp only [h]
    rfl

theorem perform_onEngine_none {p : Pipeline σ κ} {i : Nat} (he : p.engines[i]? = none) (otherwise : α)
    (action : EngineAction σ κ α) : perform (onEngine i otherwise action) p = (.ok otherwise, p) := by
  unfold onEngine
  rw [perform_bind_ok (perform_get p), he]
  rfl

/-- The pipeline after an announcement. -/
def announced (env : Environment σ κ) (a : Announcement) (p : Pipeline σ κ) : Pipeline σ κ :=
  { p with
    world.notices := p.world.notices ++ [.pipeline a]
    world.host :=
      { p.world.host with
        out := p.world.host.out ++ (env.subscriber p.world.notices (.pipeline a)).out
        err := p.world.host.err ++ (env.subscriber p.world.notices (.pipeline a)).err } }

/-- What is announced has been announced, also if a subscriber fails on it. -/
theorem perform_announce (env : Environment σ κ) (a : Announcement) (p : Pipeline σ κ) :
    perform (announce env a) p =
      ((env.subscriber p.world.notices (.pipeline a)).failure.elim (.ok ()) .error, p.announced env a) := by
  unfold announce
  rw [perform_bind_ok (perform_get p), perform_bind_ok (perform_set _ p)]
  cases (env.subscriber p.world.notices (.pipeline a)).failure <;> rfl

theorem timesStopped_announced (env : Environment σ κ) (a : Announcement) (p : Pipeline σ κ) :
    timesStopped (p.announced env a) = timesStopped p + if a = .stopped then 1 else 0 := by
  simp [timesStopped, announced, List.count_singleton]

/-! ### Calls side by side -/

/-- What is left of a call after a piece of it; nothing is left of one that failed. -/
def pending : Except Failure (Option PipelineCall) → List PipelineCall
  | .ok (some call) => [call]
  | _ => []

/-- A pipeline with the calls to it that are under way. -/
structure Calls (σ κ : Type) where
  /-- The pipeline. -/
  pipeline : Pipeline σ κ
  /-- Where the starts stand. -/
  starts : List PipelineCall
  /-- Where the stops stand. -/
  stops : List PipelineCall

namespace Calls

/-- No call is under way. -/
def none (p : Pipeline σ κ) : Calls σ κ := ⟨p, [], []⟩

variable [Feed σ] [Drain κ] (env : Environment σ κ)

/-- A start begins. -/
def beginStart (options : EngineOptions) (c : Calls σ κ) : Calls σ κ :=
  { c with
    pipeline := (perform (Pipeline.start env options) c.pipeline).2
    starts := c.starts ++ pending (perform (Pipeline.start env options) c.pipeline).1 }

/-- One of the starts goes on from where it stood. -/
def goOnStart (before : List PipelineCall) (call : PipelineCall) (after : List PipelineCall) (c : Calls σ κ) :
    Calls σ κ :=
  { c with
    pipeline := (perform (proceed env call) c.pipeline).2
    starts := before ++ pending (perform (proceed env call) c.pipeline).1 ++ after }

/-- A stop begins. -/
def beginStop (c : Calls σ κ) : Calls σ κ :=
  { c with
    pipeline := (perform (Pipeline.stop env) c.pipeline).2
    stops := c.stops ++ pending (perform (Pipeline.stop env) c.pipeline).1 }

/-- One of the stops goes on from where it stood. -/
def goOnStop (before : List PipelineCall) (call : PipelineCall) (after : List PipelineCall) (c : Calls σ κ) :
    Calls σ κ :=
  { c with
    pipeline := (perform (proceed env call) c.pipeline).2
    stops := before ++ pending (perform (proceed env call) c.pipeline).1 ++ after }

/-- The source of an engine acts. -/
def source (i : Nat) (f : Source σ → Source σ) (sent : Option SourceSignal) (c : Calls σ κ) : Calls σ κ :=
  { c with pipeline := (perform (onEngine i () (sourceStep env f sent)) c.pipeline).2 }

/-- The consumer of an engine acts. -/
def consume (i : Nat) (c : Calls σ κ) : Calls σ κ :=
  { c with pipeline := (perform (onEngine i () (Engine.consume env)) c.pipeline).2 }

/-- The definition is changed, unless it refuses that. -/
def build (b : BuilderCall) (c : Calls σ κ) : Calls σ κ :=
  { c with pipeline := (perform (define b.run) c.pipeline).2 }

/-- A step of a call, of a source, of a consumer or of a builder. Whether a start may begin while another one is under
way, and a stop while another one is, is left open. -/
inductive Step (twoStarts twoStops : Bool) : Calls σ κ → Calls σ κ → Prop where
  /-- A start begins. -/
  | beginStart (c : Calls σ κ) (options : EngineOptions) (h : c.starts = [] ∨ twoStarts = true) :
      Step twoStarts twoStops c (c.beginStart env options)
  /-- A start goes on. -/
  | goOnStart (c : Calls σ κ) (before : List PipelineCall) (call : PipelineCall) (after : List PipelineCall)
      (h : c.starts = before ++ call :: after) : Step twoStarts twoStops c (c.goOnStart env before call after)
  /-- A stop begins. -/
  | beginStop (c : Calls σ κ) (h : c.stops = [] ∨ twoStops = true) : Step twoStarts twoStops c (c.beginStop env)
  /-- A stop goes on. -/
  | goOnStop (c : Calls σ κ) (before : List PipelineCall) (call : PipelineCall) (after : List PipelineCall)
      (h : c.stops = before ++ call :: after) : Step twoStarts twoStops c (c.goOnStop env before call after)
  /-- A source acts. -/
  | source (c : Calls σ κ) (i : Nat) (f : Source σ → Source σ) (sent : Option SourceSignal) :
      Step twoStarts twoStops c (c.source env i f sent)
  /-- A consumer acts. -/
  | consume (c : Calls σ κ) (i : Nat) : Step twoStarts twoStops c (c.consume env i)
  /-- The definition is changed. -/
  | build (c : Calls σ κ) (b : BuilderCall) : Step twoStarts twoStops c (c.build b)

/-- Any number of steps. -/
abbrev Reaches (twoStarts twoStops : Bool) : Calls σ κ → Calls σ κ → Prop :=
  ReflTransGen (Step env twoStarts twoStops)

end Calls

/-! ### The engine that lives -/

/-- The definition is locked for one engine, and all other engines rest. -/
structure Alone (i : Nat) (e : Engine σ κ) (p : Pipeline σ κ) : Prop where
  /-- The engine has its number. -/
  engine : p.engines[i]? = some e
  /-- The others rest. -/
  others : ∀ (j : Nat) (e' : Engine σ κ), j ≠ i → p.engines[j]? = some e' → e'.Resting
  /-- The definition is locked. -/
  locked : p.world.definition.locked = true

theorem Alone.withSession {i : Nat} {e : Engine σ κ} {p : Pipeline σ κ} (h : Alone i e p) {t : Session σ κ}
    (ht : Own ⟨e, p.world⟩ t) : Alone i t.engine (p.withSession i t) := by
  obtain ⟨hi, -⟩ := List.getElem?_eq_some_iff.1 h.engine
  refine ⟨List.getElem?_set_self hi, fun j e' hj he' => h.others j e' hj ?_, ?_⟩
  · rwa [Pipeline.withSession, List.getElem?_set_ne (Ne.symm hj)] at he'
  · rw [Pipeline.withSession, ht.definition]
    exact h.locked

theorem timesStopped_withSession (i : Nat) {e : Engine σ κ} {p : Pipeline σ κ} {t : Session σ κ}
    (ht : Own ⟨e, p.world⟩ t) : timesStopped (p.withSession i t) = timesStopped p := ht.announced .stopped

/-- What an engine that was started lets the stops and their announcements be. -/
inductive Stands (twoStops : Bool) (i : Nat) : EngineState → List PipelineCall → Nat → Prop where
  /-- It runs. -/
  | running : Stands twoStops i .running [] 0
  /-- It is being stopped. -/
  | stopping {call : EngineCall} {told : Nat} (hcall : isStopping call = true) (htold : twoStops = false → told = 0) :
      Stands twoStops i .stopping [.stopping i call] told
  /-- It has stopped. -/
  | stopped {told : Nat} (htold : twoStops = false → told ≤ 1) : Stands twoStops i .stopped [] told

/-- How far a pipeline and the calls to it are. -/
inductive Phase (twoStops : Bool) : Calls σ κ → Prop where
  /-- No engine lives. -/
  | free {p : Pipeline σ κ} (hcurrent : p.current = none)
      (hrest : ∀ (j : Nat) (e : Engine σ κ), p.engines[j]? = some e → e.Resting) (htold : timesStopped p = 0) :
      Phase twoStops ⟨p, [], []⟩
  /-- An engine is being started. -/
  | starting {p : Pipeline σ κ} {i : Nat} {call : EngineCall} {e : Engine σ κ} (halone : Alone i e p)
      (hcurrent : p.current = none) (hcall : isStarting call = true) (hstate : e.state = .initializing)
      (hfits : fits e.consumer call = true) (htold : timesStopped p = 0) : Phase twoStops ⟨p, [.starting i call], []⟩
  /-- An engine was started. -/
  | standing {p : Pipeline σ κ} {i : Nat} {e : Engine σ κ} {stops : List PipelineCall} (halone : Alone i e p)
      (hcurrent : p.current = some i) (hwell : e.consumer.isWell = true)
      (hstands : Stands twoStops i e.state stops (timesStopped p)) : Phase twoStops ⟨p, [], stops⟩

/-! ### Steps in the background -/

/-- The engines stay as they are, but for their sources and consumers. -/
structure Behind (p p' : Pipeline σ κ) : Prop where
  /-- Each engine is as it was. -/
  engines : ∀ j : Nat, Option.Rel Background p.engines[j]? p'.engines[j]?
  /-- The current engine is the same. -/
  current : p'.current = p.current
  /-- The definition is locked just as before. -/
  locked : p'.world.definition.locked = p.world.definition.locked
  /-- Nothing was announced. -/
  told : timesStopped p' = timesStopped p

theorem Behind.exists_before {p p' : Pipeline σ κ} (h : Behind p p') {j : Nat} {e' : Engine σ κ}
    (he' : p'.engines[j]? = some e') : ∃ e, p.engines[j]? = some e ∧ Background e e' := by
  have hj := h.engines j
  rw [he'] at hj
  cases he : p.engines[j]? with
  | none =>
    rw [he] at hj
    cases hj
  | some e =>
    rw [he] at hj
    cases hj with
    | some hb => exact ⟨e, rfl, hb⟩

theorem Behind.exists_after {p p' : Pipeline σ κ} (h : Behind p p') {j : Nat} {e : Engine σ κ}
    (he : p.engines[j]? = some e) : ∃ e', p'.engines[j]? = some e' ∧ Background e e' := by
  have hj := h.engines j
  rw [he] at hj
  cases he' : p'.engines[j]? with
  | none =>
    rw [he'] at hj
    cases hj
  | some e' =>
    rw [he'] at hj
    cases hj with
    | some hb => exact ⟨e', rfl, hb⟩

theorem Alone.behind {i : Nat} {e : Engine σ κ} {p p' : Pipeline σ κ} (h : Alone i e p) (hp : Behind p p') :
    ∃ e', Background e e' ∧ Alone i e' p' := by
  obtain ⟨e', he', hb⟩ := hp.exists_after h.engine
  refine ⟨e', hb, he', fun j e'' hj he'' => ?_, hp.locked.trans h.locked⟩
  obtain ⟨e₀, he₀, hb₀⟩ := hp.exists_before he''
  exact hb₀.resting (h.others j e₀ hj he₀)

/-- **Steps in the background change no phase.** -/
theorem Phase.behind {twoStops : Bool} {c : Calls σ κ} (h : Phase twoStops c) {p' : Pipeline σ κ}
    (hp : Behind c.pipeline p') : Phase twoStops { c with pipeline := p' } := by
  cases h with
  | free hcurrent hrest htold =>
    refine .free (hp.current.trans hcurrent) (fun j e he => ?_) (hp.told.trans htold)
    obtain ⟨e₀, he₀, hb⟩ := hp.exists_before he
    exact hb.resting (hrest j e₀ he₀)
  | starting halone hcurrent hcall hstate hfits htold =>
    obtain ⟨e', hb, halone'⟩ := halone.behind hp
    exact .starting halone' (hp.current.trans hcurrent) hcall (hb.state.trans hstate) (hb.fits hfits)
      (hp.told.trans htold)
  | standing halone hcurrent hwell hstands =>
    obtain ⟨e', hb, halone'⟩ := halone.behind hp
    refine .standing halone' (hp.current.trans hcurrent) (hb.well hwell) ?_
    rwa [hb.state, hp.told]

theorem rel_background (o : Option (Engine σ κ)) : Option.Rel Background o o := by
  cases o with
  | none => exact .none
  | some e => exact .some (Background.refl e)

/-- An engine that acts in the background leaves the pipeline so. -/
theorem behind_onEngine {i : Nat} {action : EngineAction σ κ Unit} (hown : Leads Own action)
    (hback : ∀ s : Session σ κ, Background s.engine (perform action s).2.engine) (p : Pipeline σ κ) :
    Behind p (perform (onEngine i () action) p).2 := by
  cases he : p.engines[i]? with
  | none =>
    rw [perform_onEngine_none he]
    exact ⟨fun _ => rel_background _, rfl, rfl, rfl⟩
  | some e =>
    rw [perform_onEngine he]
    have ht := hown ⟨e, p.world⟩
    refine ⟨fun j => ?_, rfl, congrArg Definition.locked ht.definition, timesStopped_withSession i ht⟩
    by_cases hj : i = j
    · subst hj
      obtain ⟨hi, -⟩ := List.getElem?_eq_some_iff.1 he
      rw [he, Pipeline.withSession, List.getElem?_set_self hi]
      exact .some (hback ⟨e, p.world⟩)
    · rw [Pipeline.withSession, List.getElem?_set_ne hj]
      exact rel_background _

theorem behind_build (b : BuilderCall) (p : Pipeline σ κ) : Behind p (perform (define b.run) p).2 := by
  unfold define
  rw [perform_bind_ok (perform_get p)]
  cases hd : b.run p.world.definition with
  | ok d => exact ⟨fun _ => rel_background _, rfl, Definition.locked_run hd, rfl⟩
  | error f => exact ⟨fun _ => rel_background _, rfl, rfl, rfl⟩

/-! ### Pieces of starts and stops -/

/-- The only call of a list is where the list is cut. -/
theorem eq_of_singleton {x y : PipelineCall} {before after : List PipelineCall} (h : [x] = before ++ y :: after) :
    before = [] ∧ y = x ∧ after = [] := by
  rcases List.append_eq_singleton_iff.1 h.symm with ⟨hbefore, hrest⟩ | ⟨-, hrest⟩
  · obtain ⟨hy, hafter⟩ := List.cons.inj hrest
    exact ⟨hbefore, hy, hafter⟩
  · cases hrest

theorem isWell_of_fits {call : EngineCall} {consumer : Consumer} (hcall : isStopping call = true)
    (hfits : fits consumer call = true) : consumer.isWell = true := by
  cases call <;> first | exact hfits | cases hcall

theorem fits_of_isWell {call : EngineCall} {consumer : Consumer} (hcall : isStopping call = true)
    (hwell : consumer.isWell = true) : fits consumer call = true := by
  cases call <;> first | exact hwell | cases hcall

theorem Alone.all_rest {i : Nat} {e : Engine σ κ} {p : Pipeline σ κ} (h : Alone i e p) (he : e.Resting) (j : Nat)
    (e' : Engine σ κ) (he' : p.engines[j]? = some e') : e'.Resting := by
  by_cases hj : j = i
  · subst hj
    cases h.engine.symm.trans he'
    exact he
  · exact h.others j e' hj he'

theorem Alone.announced {i : Nat} {e : Engine σ κ} {p : Pipeline σ κ} (h : Alone i e p) (env : Environment σ κ)
    (a : Announcement) : Alone i e (p.announced env a) :=
  ⟨h.engine, h.others, h.locked⟩

/-- Whatever comes of an announcement, no call waits after it. -/
theorem pending_announce (env : Environment σ κ) (a : Announcement) (p : Pipeline σ κ) :
    pending (perform (do announce env a; return none : PipelineAction σ κ (Option PipelineCall)) p).1 = [] ∧
      (perform (do announce env a; return none : PipelineAction σ κ (Option PipelineCall)) p).2 =
        p.announced env a := by
  rw [perform_bind, perform_announce]
  cases (env.subscriber p.world.notices (.pipeline a)).failure <;> exact ⟨rfl, rfl⟩

section

variable {env : Environment σ κ} {twoStops : Bool} {p : Pipeline σ κ} {i : Nat} {e : Engine σ κ}
  {action : EngineAction σ κ (Option EngineCall)}

/-- **A piece of a start** of the only engine that lives. -/
theorem phase_starting (halone : Alone i e p) (hcurrent : p.current = none) (htold : timesStopped p = 0)
    (hown : Leads Own action)
    (hcomes : StartComes (perform action ⟨e, p.world⟩).1 (perform action ⟨e, p.world⟩).2) :
    Phase twoStops ⟨(perform (attempt (onEngine i none action) >>= afterStart env i) p).2,
      pending (perform (attempt (onEngine i none action) >>= afterStart env i) p).1, []⟩ := by
  have ht := hown ⟨e, p.world⟩
  have halone' := halone.withSession ht
  have htold' := (timesStopped_withSession i ht).trans htold
  rw [attempt, perform_bind_ok (perform_lift _ p), perform_onEngine halone.engine]
  rcases hp : perform action ⟨e, p.world⟩ with ⟨f | _ | call, t⟩
  all_goals rw [hp] at hcomes halone' htold'
  · -- the start has failed, and the engine is idle again
    obtain ⟨hwell, hidle⟩ := hcomes
    exact .free hcurrent (halone'.all_rest ⟨hidle, hwell⟩) htold'
  · -- the engine runs, and becomes the current one
    obtain ⟨hwell, hruns⟩ := hcomes
    let running : Pipeline σ κ := { p.withSession i t with current := some i }
    have hafter : perform (afterStart env i (.ok none)) (p.withSession i t) =
        perform (do announce env .started; return none) running := rfl
    obtain ⟨hpending, hstate⟩ := pending_announce env .started running
    dsimp only
    rw [hafter, hpending, hstate]
    have halone'' : Alone i t.engine running := ⟨halone'.engine, halone'.others, halone'.locked⟩
    refine .standing (halone''.announced env .started) rfl hwell ?_
    rw [hruns, timesStopped_announced, if_neg (by decide), Nat.add_zero, show timesStopped running = 0 from htold']
    exact .running
  · -- the start waits
    obtain ⟨hcall, hfits, hstate⟩ := hcomes
    exact .starting halone' hcurrent hcall hstate hfits htold'

/-- **A piece of a stop** of the engine that was started. -/
theorem phase_stopping (halone : Alone i e p) (hcurrent : p.current = some i)
    (htold : twoStops = false → timesStopped p = 0) (hown : Leads Own action)
    (hcomes : StopComes (perform action ⟨e, p.world⟩).1 (perform action ⟨e, p.world⟩).2) :
    Phase twoStops ⟨(perform (onEngine i none action >>= afterStop env i) p).2, [],
      pending (perform (onEngine i none action >>= afterStop env i) p).1⟩ := by
  have ht := hown ⟨e, p.world⟩
  have halone' := halone.withSession ht
  have htold' : twoStops = false → timesStopped (p.withSession i (perform action ⟨e, p.world⟩).2) = 0 :=
    fun h => (timesStopped_withSession i ht).trans (htold h)
  rw [perform_bind, perform_onEngine halone.engine]
  rcases hp : perform action ⟨e, p.world⟩ with ⟨f | _ | call, t⟩
  all_goals rw [hp] at hcomes halone' htold'
  · -- a subscriber has failed when told that the engine has stopped
    obtain ⟨hwell, hstopped⟩ := hcomes
    refine .standing halone' hcurrent hwell ?_
    rw [hstopped]
    exact .stopped fun h => by rw [htold' h]; exact Nat.zero_le 1
  · -- the engine has stopped, and the pipeline announces that it has
    obtain ⟨hwell, hstopped⟩ := hcomes
    obtain ⟨hpending, hstate⟩ := pending_announce env .stopped (p.withSession i t)
    have hafter : perform (afterStop env i none) (p.withSession i t) =
        perform (do announce env .stopped; return none) (p.withSession i t) := rfl
    dsimp only
    rw [hafter, hpending, hstate]
    refine .standing (halone'.announced env .stopped) hcurrent hwell ?_
    rw [hstopped, timesStopped_announced, if_pos rfl]
    exact .stopped fun h => by rw [htold' h]
  · -- the stop waits
    obtain ⟨hcall, hfits, hstate⟩ := hcomes
    refine .standing halone' hcurrent (isWell_of_fits hcall hfits) ?_
    rw [hstate]
    exact .stopping hcall htold'

end

/-! ### Steps -/

/-- A new engine rests. -/
theorem resting_create {stages : List Stage} {working : Text} {config : Fields} {settings : Option Settings}
    {e : Engine σ κ} (h : Engine.create stages working config settings = .ok e) : e.Resting := by
  obtain ⟨hidle, -, habsent, -⟩ := Engine.idle_create h
  exact ⟨hidle, by rw [habsent]; rfl⟩

/-- A new engine is the only one that does not rest. -/
theorem Alone.of_new {p : Pipeline σ κ} (hrest : ∀ (j : Nat) (e : Engine σ κ), p.engines[j]? = some e → e.Resting)
    (hlocked : p.world.definition.locked = true) (e : Engine σ κ) :
    Alone p.engines.length e { p with engines := p.engines ++ [e] } := by
  refine ⟨by simp, fun j e' hj he' => hrest j e' ?_, hlocked⟩
  obtain ⟨hlt, -⟩ := List.getElem?_eq_some_iff.1 he'
  rw [List.length_append, List.length_singleton] at hlt
  rwa [List.getElem?_append_left (by omega)] at he'

/-- What comes of making an engine. -/
theorem perform_addEngine (options : EngineOptions) (p : Pipeline σ κ) :
    perform (addEngine options) p =
      match Engine.create p.world.definition.stages p.world.host.files.working options.config options.settings with
      | .error f => (.error f, p)
      | .ok e => (.ok p.engines.length, { p with engines := p.engines ++ [e] }) := by
  unfold addEngine
  rw [perform_bind_ok (perform_get p)]
  cases (Engine.create p.world.definition.stages p.world.host.files.working options.config options.settings :
    Except Failure (Engine σ κ)) <;> rfl

section

variable [Feed σ] [Drain κ] {env : Environment σ κ} (herror : env.QuietOn Notice.isError)
  (hstarted : ∀ told, (env.subscriber told (.engine .started)).failure = none) {twoStops : Bool}

include herror

omit [Feed σ] in
/-- **A start begins** while no engine lives. -/
theorem phase_start {p : Pipeline σ κ} (hcurrent : p.current = none)
    (hrest : ∀ (j : Nat) (e : Engine σ κ), p.engines[j]? = some e → e.Resting) (htold : timesStopped p = 0)
    (options : EngineOptions) :
    Phase twoStops ⟨(perform (Pipeline.start env options) p).2,
      pending (perform (Pipeline.start env options) p).1, []⟩ := by
  have hnone : p.current.isSome = false := by rw [hcurrent]; rfl
  unfold Pipeline.start
  rw [perform_bind_ok (perform_get p), hnone]
  cases hvalid : p.world.definition.validate with
  | error f => exact .free hcurrent hrest htold
  | ok _ =>
    let asked : Pipeline σ κ := announced env .starting { p with world.definition.locked := true }
    have hasked : timesStopped asked = 0 := (timesStopped_announced env .starting _).trans htold
    have hlock : perform (lock true) p = (.ok ⟨⟩, { p with world.definition.locked := true }) := rfl
    simp only [Bool.false_eq_true, if_false]
    rw [perform_bind_ok hlock, perform_bind, perform_announce]
    cases (env.subscriber p.world.notices (.pipeline .starting)).failure with
    | some f => exact .free hcurrent hrest hasked
    | none =>
      show Phase twoStops ⟨(perform (attempt (addEngine options) >>= _) asked).2,
        pending (perform (attempt (addEngine options) >>= _) asked).1, []⟩
      rw [attempt, perform_bind_ok (perform_lift _ asked), perform_addEngine]
      cases he : (Engine.create asked.world.definition.stages asked.world.host.files.working options.config
          options.settings : Except Failure (Engine σ κ)) with
      | error f => exact .free hcurrent hrest hasked
      | ok e =>
        have hresting := resting_create he
        exact phase_starting (Alone.of_new (p := asked) hrest rfl e) hcurrent hasked
          (Engine.compositional_own env).start (Engine.comes_start herror hresting.state hresting.well)

omit [Feed σ] [Drain κ] herror in
/-- A start does nothing once an engine was started. -/
theorem perform_start_of_current {p : Pipeline σ κ} {i : Nat} (hcurrent : p.current = some i)
    (options : EngineOptions) : perform (Pipeline.start env options) p = (.ok none, p) := by
  unfold Pipeline.start
  rw [perform_bind_ok (perform_get p), hcurrent]
  rfl

omit [Drain κ] herror in
/-- A stop does nothing before. -/
theorem perform_stop_of_none {p : Pipeline σ κ} (hcurrent : p.current = none) :
    perform (Pipeline.stop env) p = (.ok none, p) := by
  unfold Pipeline.stop
  rw [perform_bind_ok (perform_get p), hcurrent]
  rfl

omit [Drain κ] herror in
theorem perform_stop {p : Pipeline σ κ} {i : Nat} {e : Engine σ κ} (hcurrent : p.current = some i)
    (he : p.engines[i]? = some e) :
    perform (Pipeline.stop env) p =
      if e.state = .stopped then (.ok none, p)
      else perform (do announce env .stopping; onEngine i none (Engine.stop env) >>= afterStop env i) p := by
  have hengine : p.currentEngine? = some e := by rw [currentEngine?, hcurrent]; exact he
  unfold Pipeline.stop
  rw [perform_bind_ok (perform_get p), hcurrent, hengine]
  dsimp only
  split <;> rfl

/-- **A stop begins** while an engine was started. -/
theorem phase_stop {p : Pipeline σ κ} {i : Nat} {e : Engine σ κ} {stops : List PipelineCall} (halone : Alone i e p)
    (hcurrent : p.current = some i) (hwell : e.consumer.isWell = true)
    (hstands : Stands twoStops i e.state stops (timesStopped p)) (hstops : stops = [] ∨ twoStops = true) :
    Phase twoStops ⟨(perform (Pipeline.stop env) p).2, [], stops ++ pending (perform (Pipeline.stop env) p).1⟩ := by
  let asked : Pipeline σ κ := announced env .stopping p
  have hasked : timesStopped asked = timesStopped p := timesStopped_announced env .stopping p
  have halone' : Alone i e asked := halone.announced env .stopping
  rw [perform_stop hcurrent halone.engine]
  by_cases hstopped : e.state = .stopped
  · rw [if_pos hstopped]
    show Phase twoStops ⟨p, [], stops ++ []⟩
    rw [List.append_nil]
    exact .standing halone hcurrent hwell hstands
  rw [if_neg hstopped, perform_bind, perform_announce]
  cases (env.subscriber p.world.notices (.pipeline .stopping)).failure with
  | some f =>
    show Phase twoStops ⟨asked, [], stops ++ []⟩
    rw [List.append_nil]
    exact .standing halone' hcurrent hwell (by rw [hasked]; exact hstands)
  | none =>
    show Phase twoStops ⟨(perform (onEngine i none (Engine.stop env) >>= afterStop env i) asked).2, [],
      stops ++ pending (perform (onEngine i none (Engine.stop env) >>= afterStop env i) asked).1⟩
    generalize hstate : e.state = state at hstands
    generalize htimes : timesStopped p = told at hstands
    cases hstands with
    | running =>
      refine phase_stopping halone' hcurrent (fun _ => hasked.trans htimes) (Engine.compositional_own env).stop ?_
      exact Engine.comes_stop herror (by rw [hstate]; rfl) hwell
    | @stopping call _ hcall htold =>
      -- the engine is being stopped already, but the pipeline announces that it has stopped
      have htwo : twoStops = true := hstops.resolve_left (List.cons_ne_nil _ _)
      have hstop : perform (onEngine i none (Engine.stop env)) asked = (.ok none, asked) := by
        rw [perform_onEngine halone'.engine, Engine.perform_stop_of_ne env (by rw [hstate]; rfl),
          withSession_self halone'.engine]
      obtain ⟨hpending, hlast⟩ := pending_announce env .stopped asked
      have hafter : perform (afterStop env i none) asked = perform (do announce env .stopped; return none) asked := rfl
      rw [perform_bind_ok hstop, hafter, hpending, hlast]
      refine .standing (halone'.announced env .stopped) hcurrent hwell ?_
      rw [hstate]
      exact .stopping hcall fun hone => absurd hone (by rw [htwo]; exact Bool.noConfusion)
    | stopped => exact absurd hstate hstopped

include hstarted

/-- **Every step leads from phase to phase**, if no start begins while another one is under way. -/
theorem Phase.step {c c' : Calls σ κ} (h : Phase twoStops c) (hstep : Calls.Step env false twoStops c c') :
    Phase twoStops c' := by
  have hown := Engine.compositional_own env
  cases hstep with
  | beginStart options hnone =>
    cases h with
    | free hcurrent hrest htold => exact phase_start herror hcurrent hrest htold options
    | starting => exact absurd (hnone.resolve_right Bool.false_ne_true) (List.cons_ne_nil _ _)
    | standing halone hcurrent hwell hstands =>
      rw [Calls.beginStart, perform_start_of_current hcurrent]
      exact .standing halone hcurrent hwell hstands
  | goOnStart before call after hcall =>
    cases h with
    | free | standing => simp at hcall
    | starting halone hcurrent hkind hstate hfits htold =>
      obtain ⟨rfl, rfl, rfl⟩ := eq_of_singleton hcall
      rw [Calls.goOnStart, List.nil_append, List.append_nil]
      exact phase_starting halone hcurrent htold (hown.proceed _)
        (Engine.comes_starting herror hstarted hkind hstate hfits)
  | beginStop hnone =>
    cases h with
    | free hcurrent hrest htold =>
      rw [Calls.beginStop, perform_stop_of_none hcurrent]
      exact .free hcurrent hrest htold
    | starting halone hcurrent hkind hstate hfits htold =>
      rw [Calls.beginStop, perform_stop_of_none hcurrent]
      exact .starting halone hcurrent hkind hstate hfits htold
    | standing halone hcurrent hwell hstands => exact phase_stop herror halone hcurrent hwell hstands hnone
  | goOnStop before call after hcall =>
    cases h with
    | free | starting => simp at hcall
    | @standing p i e stops halone hcurrent hwell hstands =>
      generalize hstate : e.state = state at hstands
      generalize htimes : timesStopped p = told at hstands
      cases hstands with
      | running | stopped => simp at hcall
      | stopping hkind htold =>
        obtain ⟨rfl, rfl, rfl⟩ := eq_of_singleton hcall
        rw [Calls.goOnStop, List.nil_append, List.append_nil]
        refine phase_stopping halone hcurrent (fun hone => htimes.trans (htold hone)) (hown.proceed _) ?_
        exact Engine.comes_stopping herror hkind hstate (fits_of_isWell hkind hwell)
  | source i f sent =>
    exact h.behind (behind_onEngine (hown.sourceStep f sent) (Engine.background_sourceStep herror f sent) _)
  | consume i => exact h.behind (behind_onEngine hown.consume (Engine.background_consume herror) _)
  | build b => exact h.behind (behind_build b _)

end

/-! ### One engine -/

/-- At most one engine lives, and the definition refuses all changes while one does. -/
structure OneLives (p : Pipeline σ κ) : Prop where
  /-- No other engine lives. -/
  alone : ∀ (i j : Nat) (e e' : Engine σ κ), p.engines[i]? = some e → p.engines[j]? = some e' →
    e.isLive = true → e'.isLive = true → i = j
  /-- The definition refuses all changes. -/
  refuses : ∀ (i : Nat) (e : Engine σ κ), p.engines[i]? = some e → e.isLive = true → p.world.definition.Refuses

/-- It was announced at most once that the pipeline has stopped, and only when the engine that was started had. -/
structure StopsOnce (p : Pipeline σ κ) : Prop where
  /-- It was announced at most once. -/
  once : timesStopped p ≤ 1
  /-- The engine that was started has stopped. -/
  stopped : 0 < timesStopped p → ∃ i e, p.current = some i ∧ p.engines[i]? = some e ∧ e.state = .stopped

theorem isLive_of_resting {e : Engine σ κ} (h : e.Resting) : e.isLive = false := by
  unfold Engine.isLive
  rw [h.state]

theorem Alone.oneLives {i : Nat} {e : Engine σ κ} {p : Pipeline σ κ} (h : Alone i e p) : OneLives p := by
  have hi : ∀ (j : Nat) (e' : Engine σ κ), p.engines[j]? = some e' → e'.isLive = true → j = i := by
    intro j e' he' hlive
    by_contra hj
    rw [isLive_of_resting (h.others j e' hj he')] at hlive
    cases hlive
  refine ⟨fun j k e' e'' he' he'' hlive hlive' => ?_, fun _ _ _ _ => Definition.refuses_of_locked h.locked⟩
  rw [hi j e' he' hlive, hi k e'' he'' hlive']

theorem Phase.oneLives {twoStops : Bool} {c : Calls σ κ} (h : Phase twoStops c) : OneLives c.pipeline := by
  cases h with
  | free hcurrent hrest htold =>
    refine ⟨fun j k e e' he he' hlive => ?_, fun j e he hlive => ?_⟩
    all_goals
      rw [isLive_of_resting (hrest j e he)] at hlive
      cases hlive
  | starting halone => exact halone.oneLives
  | standing halone => exact halone.oneLives

theorem stopsOnce_of_zero {p : Pipeline σ κ} (h : timesStopped p = 0) : StopsOnce p :=
  ⟨by rw [h]; exact Nat.zero_le 1, fun hpos => absurd h (Nat.ne_of_gt hpos)⟩

theorem Phase.stopsOnce {c : Calls σ κ} (h : Phase false c) : StopsOnce c.pipeline := by
  cases h with
  | free hcurrent hrest htold => exact stopsOnce_of_zero htold
  | starting halone hcurrent hcall hstate hfits htold => exact stopsOnce_of_zero htold
  | @standing p i e stops halone hcurrent hwell hstands =>
    generalize hstate : e.state = state at hstands
    generalize htimes : timesStopped p = told at hstands
    cases hstands with
    | running => exact stopsOnce_of_zero htimes
    | stopping hcall htold => exact stopsOnce_of_zero (htimes.trans (htold rfl))
    | stopped htold => exact ⟨htimes.trans_le (htold rfl), fun _ => ⟨i, e, hcurrent, halone.engine, hstate⟩⟩

/-- **One engine at a time.** No subscriber fails on errors, nor when an engine says that it runs (which a pipeline
does not pass on). If no start of a pipeline begins while another one is under way, then at most one of its engines
lives, and its definition refuses all changes while one does. If no stop begins while another one is under way either,
then it is announced at most once that the pipeline has stopped, and only when its engine has. -/
theorem one_engine [Feed σ] [Drain κ] {env : Environment σ κ} (herror : env.QuietOn Notice.isError)
    (hstarted : ∀ told, (env.subscriber told (.engine .started)).failure = none) {twoStops : Bool}
    {definition : Definition} {host : Host} {clock : Clock} {c : Calls σ κ}
    (hc : Calls.Reaches env false twoStops (Calls.none (.ofDefinition definition host clock)) c) :
    OneLives c.pipeline ∧ (twoStops = false → StopsOnce c.pipeline) := by
  have hphase : Phase twoStops c := by
    induction hc with
    | refl => exact .free rfl (fun j e he => by cases he) rfl
    | tail _ hstep ih => exact ih.step herror hstarted hstep
  refine ⟨hphase.oneLives, ?_⟩
  rintro rfl
  exact hphase.stopsOnce

/-! ### Runs in memory -/

/-- A pipeline in memory, without an engine; a stage fails on every event. -/
def idle : Calls MemorySource (Recorded MemorySink) :=
  .none (.ofDefinition
    ⟨some ⟨"memory", []⟩, some ⟨"memory", []⟩, [.filter (fun _ => .error Engine.noSink) none], 1, false⟩
    ⟨.empty "/work", [], []⟩ ⟨[]⟩)

/-- An engine is made with the settings that there are anyway. -/
def plainOptions : EngineOptions := ⟨[], some Settings.default⟩

/-- No engine can be made with a capacity below zero. -/
def refusedOptions : EngineOptions :=
  ⟨[(.name Settings.sectionName, .object [(.name Settings.capacityKey, .int (-1))])], none⟩

/-- The pipeline has been started. -/
def started (env : Environment MemorySource (Recorded MemorySink)) : Calls MemorySource (Recorded MemorySink) :=
  (idle.beginStart env plainOptions).goOnStart env [] (.starting 0 .startingSource) []

/-- The pipeline has been stopped, too. -/
def stopped : Calls MemorySource (Recorded MemorySink) :=
  let env := Engine.inMemory
  ((started env).beginStop env)
    |>.goOnStop env [] (.stopping 0 (.stoppingSource false)) []
    |>.consume env 0
    |>.goOnStop env [] (.stopping 0 .emptyingQueue) []
    |>.goOnStop env [] (.stopping 0 .closingSink) []

theorem reaches_started (env : Environment MemorySource (Recorded MemorySink)) (twoStarts twoStops : Bool)
    (hwaits : (idle.beginStart env plainOptions).starts = [.starting 0 .startingSource]) :
    Calls.Reaches env twoStarts twoStops idle (started env) :=
  .tail (.single (.beginStart _ _ (.inl rfl))) (.goOnStart _ [] _ [] hwaits)

/-- After a start and a stop in a row it was announced once that the pipeline has stopped. -/
theorem one_engine_in_memory :
    OneLives stopped.pipeline ∧ StopsOnce stopped.pipeline ∧ timesStopped stopped.pipeline = 1 := by
  have hrun : Calls.Reaches Engine.inMemory false false idle stopped := by
    refine .tail (.tail (.tail (.tail (.tail (reaches_started _ _ _ ?_) (.beginStop _ (.inl rfl)))
      (.goOnStop _ [] _ [] ?_)) (.consume _ 0)) (.goOnStop _ [] _ [] ?_)) (.goOnStop _ [] _ [] ?_)
    all_goals decide +kernel
  obtain ⟨hlives, hstops⟩ := one_engine (fun _ _ _ => rfl) (fun _ => rfl) hrun
  exact ⟨hlives, hstops rfl, by decide +kernel⟩

/-- Two starts overlap. -/
def startedTwice (options : EngineOptions) : Calls MemorySource (Recorded MemorySink) :=
  (idle.beginStart Engine.inMemory plainOptions).beginStart Engine.inMemory options

theorem reaches_startedTwice (options : EngineOptions) :
    Calls.Reaches Engine.inMemory true false idle (startedTwice options) :=
  .tail (.single (.beginStart _ _ (.inl rfl))) (.beginStart _ _ (.inr rfl))

/-- **Two starts that overlap make two engines**, and if one of them fails, the definition is unlocked although the
engine of the other one is being started. -/
theorem two_engines :
    Calls.Reaches Engine.inMemory true false idle (startedTwice plainOptions) ∧
      (startedTwice plainOptions).pipeline.engines.map Engine.state = [.initializing, .initializing] ∧
      Calls.Reaches Engine.inMemory true false idle (startedTwice refusedOptions) ∧
      (startedTwice refusedOptions).pipeline.engines.map Engine.state = [.initializing] ∧
      (startedTwice refusedOptions).pipeline.world.definition.locked = false := by
  refine ⟨reaches_startedTwice _, ?_, reaches_startedTwice _, ?_, ?_⟩
  all_goals decide +kernel

/-- Two stops overlap. -/
def stoppedTwice : Calls MemorySource (Recorded MemorySink) :=
  ((started Engine.inMemory).beginStop Engine.inMemory).beginStop Engine.inMemory

/-- **A stop that overlaps with another one announces too soon** that the pipeline has stopped. -/
theorem stopped_too_soon :
    Calls.Reaches Engine.inMemory false true idle stoppedTwice ∧ timesStopped stoppedTwice.pipeline = 1 ∧
      stoppedTwice.pipeline.engines.map Engine.state = [.stopping] := by
  refine ⟨.tail (.tail (reaches_started _ _ _ ?_) (.beginStop _ (.inr rfl))) (.beginStop _ (.inr rfl)), ?_, ?_⟩
  all_goals decide +kernel

/-- A subscriber fails on errors, and so the consumer breaks down; a stop breaks down with it. Then a second stop
begins. -/
def brokenDown : Calls MemorySource (Recorded MemorySink) :=
  let env := Engine.failingOn Notice.isError
  ((started env).source env 0 id (some (.data (.int 1))))
    |>.consume env 0
    |>.beginStop env
    |>.goOnStop env [] (.stopping 0 (.stoppingSource false)) []
    |>.goOnStop env [] (.stopping 0 .emptyingQueue) []
    |>.beginStop env

/-- **After a stop that broke down another one announces** that the pipeline has stopped, although its engine has
not. -/
theorem stopped_in_name_only :
    Calls.Reaches (Engine.failingOn Notice.isError) false false idle brokenDown ∧
      timesStopped brokenDown.pipeline = 1 ∧ brokenDown.pipeline.engines.map Engine.state = [.stopping] := by
  refine ⟨.tail (.tail (.tail (.tail (.tail (.tail (reaches_started _ _ _ ?_) (.source _ 0 _ _)) (.consume _ 0))
    (.beginStop _ (.inl rfl))) (.goOnStop _ [] _ [] ?_)) (.goOnStop _ [] _ [] ?_)) (.beginStop _ (.inl ?_)), ?_, ?_⟩
  all_goals decide +kernel

end Pipeline

end EventPipeline
