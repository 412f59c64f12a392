import EventPipeline.Proofs.Engine.Meanwhile

/-!
# A stop loses nothing

From its start to the end of its stop an engine goes through phases. While it is *open*, items may come
and the consumer handles them. Once the source has stopped, a last item tells the consumer to leave, and
the queue is only *emptied*. When the consumer has left, the sink is *closed*, and after that the engine
has stopped. Each step of a party keeps the phase or leads to the next one, and the run stays faithful to
the sequential one meanwhile (`invariant_step`). So the final state is that of the sequential run, with
the sink closed behind the last write (`stopped_as_sequential`).
-/

namespace EventPipeline

open SinkAction (Oblivious)
open Relation (ReflTransGen)

variable {σ κ : Type}

namespace Engine

open Interleaving (begun)

/-! ### Phases -/

/-- Where the call stands while items may come. -/
inductive Attended : Option EngineCall → EngineState → Prop where
  /-- The source is being started. -/
  | starting : Attended (some .startingSource) .initializing
  /-- The start has come to its end. -/
  | running : Attended none .running
  /-- The source is being stopped. -/
  | stopping (announces : Bool) : Attended (some (.stoppingSource announces)) .stopping

/-- Items may come, and the consumer handles them. -/
structure Open (c : Interleaving σ κ) : Prop where
  /-- Where the call stands. -/
  call : Attended c.call c.session.engine.state
  /-- There is a queue. -/
  queue : c.session.engine.queue.isSome
  /-- The consumer has not been told to leave. -/
  noStop : .stop ∉ waiting c.session
  /-- The consumer is there. -/
  active : isActive c.session.engine.consumer

/-- The consumer has been told to leave once the queue is empty, or has left. -/
structure Emptying (c : Interleaving σ κ) : Prop where
  /-- The caller waits for the consumer. -/
  call : c.call = some .emptyingQueue
  /-- The engine is being stopped. -/
  state : c.session.engine.state = .stopping
  /-- There is a queue. -/
  queue : c.session.engine.queue.isSome
  /-- The consumer leaves after the last item. -/
  last : (isActive c.session.engine.consumer ∧ ∃ items, waiting c.session = items ++ [.stop] ∧ .stop ∉ items) ∨
    (c.session.engine.consumer = .over ∧ waiting c.session = [])

/-- The consumer has left, and the sink is to be closed. -/
structure Closing (c : Interleaving σ κ) : Prop where
  /-- The caller waits for the sink. -/
  call : c.call = some .closingSink
  /-- The engine is being stopped. -/
  state : c.session.engine.state = .stopping
  /-- Nothing is left to be handled. -/
  waiting : waiting c.session = []
  /-- The consumer has left. -/
  consumer : c.session.engine.consumer = .absent

/-- What closing the sink and removing the spilled values leaves as it was. -/
structure Closed (c d : Interleaving σ (Recorded κ)) : Prop where
  /-- The call has come to its end. -/
  call : d.call = none
  /-- The engine has stopped. -/
  state : d.session.engine.state = .stopped
  /-- The consumer has left. -/
  consumer : d.session.engine.consumer = .absent
  /-- The buffer is the same. -/
  buffer : d.session.engine.buffer = c.session.engine.buffer
  /-- The sink was closed. -/
  sink : sinkCalls d.session = sinkCalls c.session ++ [.close]
  /-- Nothing was counted. -/
  counted : eventsReceived d.session = eventsReceived c.session
  /-- Nobody was told what became of an event. -/
  progress : d.session.world.notices.filter isProgress = c.session.world.notices.filter isProgress
  /-- Nothing came. -/
  arrived : d.arrived = c.arrived
  /-- Nothing was taken. -/
  taken : d.taken = c.taken
  /-- The consumer told nothing. -/
  told : d.told = c.told

/-! ### The sink -/

/-- The calls that the sink got between two sessions were writes. -/
def Writes (s t : Session σ (Recorded κ)) : Prop :=
  ∀ r, s.engine.sink = some r →
    ∃ (r' : Recorded κ) (written : List Value),
      t.engine.sink = some r' ∧ r'.calls = r.calls ++ written.map SinkCall.write

instance : IsPreorder (Session σ (Recorded κ)) Writes where
  refl _ r h := ⟨r, [], h, (List.append_nil _).symm⟩
  trans _ _ _ h h' r hr := by
    obtain ⟨r', xs, hr', hxs⟩ := h r hr
    obtain ⟨r'', ys, hr'', hys⟩ := h' r' hr'
    exact ⟨r'', xs ++ ys, hr'', by rw [hys, hxs, List.map_append, List.append_assoc]⟩

theorem writes_of_sink {s t : Session σ (Recorded κ)} (h : t.engine.sink = s.engine.sink) : Writes s t :=
  fun r hr => ⟨r, [], h.trans hr, (List.append_nil _).symm⟩

/-- **The handling of items writes to the sink and does not close it.** -/
theorem writes_handleAll [Drain κ] (env : Environment σ (Recorded κ)) (items : List QueueItem) :
    Leads Writes (handleAll env items) := by
  have hr : ∀ s t : Session σ (Recorded κ), Aside s t → Writes s t := fun s t h =>
    writes_of_sink (congrArg Core.sink h.core_eq)
  have ha : ∀ (α : Type) (action : StateM Accumulator α),
      Leads Writes (onAccumulator action : EngineAction σ (Recorded κ) α) := fun _ _ s => writes_of_sink rfl
  have hw : ∀ v, Leads Writes (onSink (Drain.write v) : EngineAction σ (Recorded κ) Unit) := by
    intro v s r hs
    rw [perform_onSink, hs]
    refine ⟨_, [v], rfl, ?_⟩
    show (perform (Recorded.passing (.write v) (Drain.write v)) (r, s.world.host)).2.1.calls = _
    rw [Recorded.perform_passing]
    rfl
  have hs : ∀ capacity, Leads Writes (onSpill (Spill.spillIfNeeded capacity) : EngineAction σ (Recorded κ) _) := by
    intro capacity s
    rw [perform_onSpill]
    exact writes_of_sink rfl
  induction items with
  | nil => exact Leads.pure _
  | cons item items ih =>
    refine Leads.bind ?_ fun _ => ih
    cases item with
    | event v => exact leads_process env hr hw hs ha v
    | finished => exact leads_finish env hr hw ha
    | stop => exact Leads.pure _

section

variable [Drain κ] {env : Environment σ (Recorded κ)} (hq : env.Quiet)

include hq

/-- **The sink is closed, and the spilled values are removed.** -/
theorem closing_step [Feed σ] {c : Interleaving σ (Recorded κ)} (hc : Closing c) {t : Session σ (Recorded κ)}
    {next : Option EngineCall} (hsink : c.session.engine.sink.isSome)
    (hp : perform (proceed env .closingSink) c.session = (.ok next, t)) : Closed c (c.afterOthers t next) := by
  obtain ⟨r, hr⟩ := Option.isSome_iff_exists.1 hsink
  obtain ⟨⟨⟩, u, hclose, hp⟩ := perform_bind_eq_ok hp
  obtain ⟨r', host, hcalls, hu⟩ := closeSink_step hq hr hclose
  obtain ⟨⟨⟩, v, hdiscard, hp⟩ := perform_bind_eq_ok hp
  have hv := spared_discardSpill hq u
  rw [hdiscard] at hv
  rw [perform_bind_ok (perform_enter _ v), perform_bind_ok (puts_signal hq rfl _).result] at hp
  cases hp
  have htold : Puts [] (signal env .stopped) (entered .stopped v) () _ := puts_signal hq rfl _
  have hlast := trans_of (Beside []) (beside_entered .stopped v) htold.beside
  have hall := trans_of Spared hu (trans_of Spared hv hlast.spared)
  refine ⟨rfl, rfl, hall.consumer.trans hc.consumer, hall.buffer, ?_, hall.counted, hall.progress, ?_, rfl, rfl⟩
  · have hsink := hall.sink
    simp only [withSink] at hsink
    simp only [sinkCalls, hr, Interleaving.afterOthers, hsink, Option.map_some, Option.getD_some, hcalls]
  · have hw : waiting _ = waiting c.session := hall.waiting
    rw [Interleaving.afterOthers, hw, List.drop_length]
    exact List.append_nil _

end

/-! ### The invariant -/
/-- What is taken from the front of a queue that ends with the order to leave, but is not that order. -/
theorem append_stop {xs ys items : List QueueItem} (h : xs ++ ys = items ++ [.stop]) (hx : .stop ∉ xs) :
    ∃ rest, ys = rest ++ [.stop] ∧ items = xs ++ rest := by
  rcases List.append_eq_append_iff.1 h with ⟨rest, hi, hy⟩ | ⟨rest, hxs, hs⟩
  · exact ⟨rest, hy, hi⟩
  · cases rest with
    | nil => exact ⟨[], hs.symm, by rw [hxs, List.append_nil, List.append_nil]⟩
    | cons r rest =>
      obtain ⟨rfl, -⟩ := List.cons.inj hs
      exact absurd (hxs ▸ List.mem_append_right _ List.mem_cons_self) hx

section

variable [Drain κ] {env : Environment σ (Recorded κ)} {s₀ : Session σ (Recorded κ)}
  {c : Interleaving σ (Recorded κ)}

/-- When nothing is left to do, the sequential run has been made. -/
theorem Faithful.settled (h : Faithful env s₀ c) (hdue : due? c.session.engine.consumer = none)
    (hw : waiting c.session = []) :
    c.taken = c.arrived ∧
      ∃ t, Gives (handleAll env c.arrived) s₀ () c.told t ∧ c.session.core = t.core := by
  obtain ⟨⟨ns, all, u, t, hu, ht, hcore, rfl⟩, -, -, horder⟩ := h
  rw [hw, List.filter_nil, List.append_nil] at horder
  rw [remaining, hdue, hw] at hu
  obtain ⟨-, rfl, rfl⟩ := hu.unique (Gives.pure () _)
  rw [List.append_nil] at ht
  exact ⟨horder, t, ht, hcore⟩

/-- The consumer is forgotten once it has left. -/
theorem Faithful.left (hq : env.Quiet) (hk : ∀ v, Oblivious (Drain.write v : SinkAction (Recorded κ) Unit))
    (h : Faithful env s₀ c) (hdue : due? c.session.engine.consumer = none) (next : Option EngineCall) :
    Faithful env s₀ (c.afterOthers { c.session with engine.consumer := .absent } next) := by
  let t : Session σ (Recorded κ) := { c.session with engine.consumer := .absent }
  have harrived : (c.afterOthers t next).arrived = c.arrived := by
    have hw : waiting t = waiting c.session := rfl
    rw [Interleaving.afterOthers, hw, List.drop_length]
    exact List.append_nil _
  obtain ⟨ns, all, u, u', hu, hu', hcore, hall⟩ := h.complete
  obtain ⟨v, hv, hcv⟩ := (confined_remaining hq hk c.session).transfer hu (show c.session.core = t.core from rfl)
  refine ⟨⟨ns, all, v, u', ?_, harrived.symm ▸ hu', hcv.symm.trans hcore, hall⟩, ?_, h.progress, ?_⟩
  · rw [remaining, hdue] at hv
    exact hv
  · rw [harrived]
    exact h.counted
  · rw [harrived]
    exact h.order

theorem Faithful.sink (h : Faithful env s₀ c) (hs : s₀.engine.sink.isSome)
    (hdue : due? c.session.engine.consumer = none) (hw : waiting c.session = []) :
    c.session.engine.sink.isSome := by
  obtain ⟨-, t, ht, hcore⟩ := h.settled hdue hw
  obtain ⟨r, hr⟩ := Option.isSome_iff_exists.1 hs
  obtain ⟨r', written, hr', -⟩ := writes_handleAll env c.arrived s₀ r hr
  rw [ht.result] at hr'
  have hsink : c.session.engine.sink = t.engine.sink := congrArg Core.sink hcore
  rw [hsink, hr']
  rfl

/-- Whoever is not active does nothing. -/
theorem perform_consume_of_inactive {s : Session σ (Recorded κ)} (h : isActive s.engine.consumer = false) :
    perform (consume env) s = (.ok (), s) := by
  rw [consume, perform_bind_ok (perform_get s)]
  cases hc : s.engine.consumer with
  | waiting | writing =>
    rw [hc] at h
    cases h
  | _ => rfl

variable [Feed σ]

/-- What holds of an engine at any time: it is faithful to the sequential run, in one of its phases, or it
has been so and was closed since. -/
def Invariant (env : Environment σ (Recorded κ)) (s₀ : Session σ (Recorded κ))
    (c : Interleaving σ (Recorded κ)) : Prop :=
  (Faithful env s₀ c ∧ (Open c ∨ Emptying c ∨ Closing c)) ∨
    ∃ b, Reaches env (begun s₀) b ∧ Reaches env b c ∧ Faithful env s₀ b ∧ Closing b ∧ Closed b c

theorem Invariant.source_step (hq : env.Quiet) (hk : ∀ v, Oblivious (Drain.write v : SinkAction κ Unit))
    (h : Invariant env s₀ c) (f : Source σ → Source σ) (sent : Option SourceSignal) (ha : c.sourceActs) :
    Invariant env s₀ (c.afterOthers (perform (sourceStep env f sent) c.session).2 c.call) := by
  rcases h with ⟨hf, hopen | hemp | hcl⟩ | ⟨b, -, -, -, -, hcl⟩
  · obtain ⟨items, t, hi, ht⟩ := Engine.source_step hq f sent hopen.queue
    rw [ht.result]
    refine .inl ⟨hf.others hq (fun v => Recorded.oblivious_write (hk v)) ht.beside c.call, .inl ⟨?_, ?_, ?_, ?_⟩⟩
    · exact ht.state ▸ hopen.call
    · exact ht.beside.queue.trans hopen.queue
    · show .stop ∉ waiting t
      rw [ht.beside.waiting, List.mem_append, not_or]
      exact ⟨hopen.noStop, hi⟩
    · exact ht.beside.consumer ▸ hopen.active
  · rw [Interleaving.sourceActs, hemp.call] at ha
    exact ha.elim
  · rw [Interleaving.sourceActs, hcl.call] at ha
    exact ha.elim
  · rw [Interleaving.sourceActs, hcl.call] at ha
    simp only [hcl.state, reduceCtorEq] at ha

theorem Invariant.consumer_step (hq : env.Quiet) (hk : ∀ v, Oblivious (Drain.write v : SinkAction κ Unit))
    (h : Invariant env s₀ c) : Invariant env s₀ (c.afterConsumer (perform (consume env) c.session).2) := by
  have hidle : isActive c.session.engine.consumer = false →
      c.afterConsumer (perform (consume env) c.session).2 = c := fun hi => by
    rw [perform_consume_of_inactive hi, afterConsumer_self]
  have hk' := fun v => Recorded.oblivious_write (hk v)
  rcases h with ⟨hf, hopen | hemp | hcl⟩ | ⟨b, hb, hbc, hf, hcl, hclosed⟩
  · obtain ⟨t, ht, hf', hstate, hqueue, hrest⟩ := hf.consumer_step hq hk' hopen.queue hopen.active
    rw [ht]
    rcases hrest with ⟨hw, -⟩ | ⟨hact, items, -, hw⟩
    · exact absurd (hw ▸ List.mem_cons_self) hopen.noStop
    · refine .inl ⟨hf', .inl ⟨hstate ▸ hopen.call, hqueue, fun hm => ?_, hact⟩⟩
      exact hopen.noStop (hw ▸ List.mem_append_right _ hm)
  · rcases hemp.last with ⟨hact, items, hitems, hni⟩ | ⟨hover, hnil⟩
    · obtain ⟨t, ht, hf', hstate, hqueue, hrest⟩ := hf.consumer_step hq hk' hemp.queue hact
      rw [ht]
      refine .inl ⟨hf', .inr (.inl ⟨hemp.call, hstate.trans hemp.state, hqueue, ?_⟩)⟩
      rw [hitems] at hrest
      rcases hrest with ⟨hw, hover⟩ | ⟨hact', xs, hx, hw⟩
      · cases items with
        | nil => exact .inr ⟨hover, (List.cons.inj hw).2.symm⟩
        | cons x xs => exact absurd (by rw [(List.cons.inj hw).1]; exact List.mem_cons_self) hni
      · obtain ⟨rest, hrest, rfl⟩ := append_stop hw.symm hx
        exact .inl ⟨hact', rest, hrest, fun hm => hni (List.mem_append_right _ hm)⟩
    · rw [hidle (by rw [hover]; rfl)]
      exact .inl ⟨hf, .inr (.inl hemp)⟩
  · rw [hidle (by rw [hcl.consumer]; rfl)]
    exact .inl ⟨hf, .inr (.inr hcl)⟩
  · rw [hidle (by rw [hclosed.consumer]; rfl)]
    exact .inr ⟨b, hb, hbc, hf, hcl, hclosed⟩

theorem Invariant.caller_step (hq : env.Quiet) (hk : ∀ v, Oblivious (Drain.write v : SinkAction κ Unit))
    (hs : s₀.engine.sink.isSome) (h : Invariant env s₀ c) (hr : Reaches env (begun s₀) c) {call : EngineCall}
    {next : Option EngineCall} {t : Session σ (Recorded κ)} (hc : c.call = some call)
    (hstart : call = .startingSource → next = none) (hp : perform (proceed env call) c.session = (.ok next, t)) :
    Invariant env s₀ (c.afterOthers t next) := by
  have hk' := fun v => Recorded.oblivious_write (hk v)
  rcases h with ⟨hf, hopen | hemp | hcl⟩ | ⟨b, -, -, -, -, hclosed⟩
  · have hattended := hopen.call
    rw [hc] at hattended
    generalize hstate : c.session.engine.state = state at hattended
    cases hattended with
    | starting =>
      obtain rfl := hstart rfl
      obtain ⟨hb, hrun⟩ := startSource_step hq hopen.active hp
      refine .inl ⟨hf.others hq hk' hb none, .inl ⟨?_, hb.queue.trans hopen.queue, ?_, hb.consumer ▸ hopen.active⟩⟩
      · show Attended none t.engine.state
        rw [hrun]
        exact .running
      · show .stop ∉ waiting t
        rw [hb.waiting, List.append_nil]
        exact hopen.noStop
    | stopping announces =>
      obtain ⟨rfl, hst, items, hi, hb⟩ := stopSource_step hq hopen.queue hopen.active hp
      refine .inl ⟨hf.others hq hk' hb _, .inr (.inl ⟨rfl, hst.trans hstate, hb.queue.trans hopen.queue, .inl ?_⟩)⟩
      refine ⟨hb.consumer ▸ hopen.active, waiting c.session ++ items, ?_, ?_⟩
      · exact hb.waiting.trans (List.append_assoc _ _ _).symm
      · rw [List.mem_append, not_or]
        exact ⟨hopen.noStop, hi⟩
  · obtain rfl := Option.some.inj (hc.symm.trans hemp.call)
    have hleft : isActive c.session.engine.consumer = false →
        c.session.engine.consumer = .over ∧ waiting c.session = [] := fun hi =>
      hemp.last.resolve_left fun h => by rw [hi] at h; cases h.1
    rcases awaitConsumer_step (fun hi => hf.sink hs (due?_of_inactive hi) (hleft hi).2) hp with
      ⟨rfl, rfl⟩ | ⟨hi, rfl, rfl⟩
    · rw [← hemp.call, afterOthers_self]
      exact .inl ⟨hf, .inr (.inl hemp)⟩
    · obtain ⟨hover, hnil⟩ := hleft hi
      exact .inl ⟨hf.left hq hk' (due?_of_inactive hi) _, .inr (.inr ⟨rfl, hemp.state, hnil, rfl⟩)⟩
  · obtain rfl := Option.some.inj (hc.symm.trans hcl.call)
    have hsink := hf.sink hs (by rw [hcl.consumer]; rfl) hcl.waiting
    refine .inr ⟨c, hr, .single (Step.caller c _ next t hc hstart hp), hf, hcl, closing_step hq hcl hsink hp⟩
  · rw [hclosed.call] at hc
    cases hc

theorem Invariant.stop_step (hq : env.Quiet) (hk : ∀ v, Oblivious (Drain.write v : SinkAction κ Unit))
    (h : Invariant env s₀ c) {next : Option EngineCall} {t : Session σ (Recorded κ)} (hc : c.call = none)
    (hp : perform (Engine.stop env) c.session = (.ok next, t)) : Invariant env s₀ (c.afterOthers t next) := by
  have hk' := fun v => Recorded.oblivious_write (hk v)
  rcases h with ⟨hf, hopen | hemp | hcl⟩ | ⟨b, hb, hbc, hf, hcl, hclosed⟩
  · have hstate : c.session.engine.state = .running := by
      have hattended := hopen.call
      rw [hc] at hattended
      cases hs : c.session.engine.state <;> rw [hs] at hattended <;> first | rfl | cases hattended
    obtain ⟨hst, ⟨announces, rfl, hb⟩ | ⟨rfl, hb⟩⟩ := Engine.stop_step hstate hopen.queue hopen.active hp
    · refine .inl ⟨hf.others hq hk' hb _, .inl ⟨?_, hb.queue.trans hopen.queue, ?_, hb.consumer ▸ hopen.active⟩⟩
      · show Attended _ t.engine.state
        rw [hst]
        exact .stopping announces
      · show .stop ∉ waiting t
        rw [hb.waiting, List.append_nil]
        exact hopen.noStop
    · refine .inl ⟨hf.others hq hk' hb _, .inr (.inl ⟨rfl, hst, hb.queue.trans hopen.queue, .inl ?_⟩)⟩
      exact ⟨hb.consumer ▸ hopen.active, waiting c.session, hb.waiting, hopen.noStop⟩
  · rw [hemp.call] at hc
    cases hc
  · rw [hcl.call] at hc
    cases hc
  · rw [Engine.stop, perform_bind_ok (perform_get _), hclosed.state] at hp
    cases hp
    rw [← hc, afterOthers_self]
    exact .inr ⟨b, hb, hbc, hf, hcl, hclosed⟩

/-- **Each step keeps the invariant.** -/
theorem Invariant.step (hq : env.Quiet) (hk : ∀ v, Oblivious (Drain.write v : SinkAction κ Unit))
    (hs : s₀.engine.sink.isSome) (h : Invariant env s₀ c) (hr : Reaches env (begun s₀) c)
    {d : Interleaving σ (Recorded κ)} (hstep : Step env c d) : Invariant env s₀ d := by
  cases hstep with
  | source f sent ha => exact h.source_step hq hk f sent ha
  | consumer => exact h.consumer_step hq hk
  | caller call next t hc hstart hp => exact h.caller_step hq hk hs hr hc hstart hp
  | stop next t hc hp => exact h.stop_step hq hk hc hp

theorem Invariant.begun {env : Environment σ (Recorded κ)} {s t : Session σ (Recorded κ)}
    (h : perform (start env) s = (.ok (some .startingSource), t)) : Invariant env t (begun t) := by
  obtain ⟨hstate, hqueue, hconsumer, -⟩ := start_begun h
  have hw : waiting t = [] := by
    rw [waiting, hqueue]
    rfl
  refine .inl ⟨Faithful.begun hconsumer hw, .inl ⟨?_, ?_, ?_, ?_⟩⟩
  · show Attended _ t.engine.state
    rw [hstate]
    exact .starting
  · show t.engine.queue.isSome
    rw [hqueue]
    rfl
  · show .stop ∉ waiting t
    rw [hw]
    exact List.not_mem_nil
  · show isActive t.engine.consumer
    rw [hconsumer]
    rfl

/-! ### Any number of steps -/

theorem Invariant.reaches (hq : env.Quiet) (hk : ∀ v, Oblivious (Drain.write v : SinkAction κ Unit))
    (hs : s₀.engine.sink.isSome) (h : Invariant env s₀ (Interleaving.begun s₀))
    (hr : Reaches env (Interleaving.begun s₀) c) : Invariant env s₀ c := by
  induction hr with
  | refl => exact h
  | tail hr hstep ih => exact ih.step hq hk hs hr hstep

/-- **Every order of steps is the sequential one, and a stop loses nothing.** Take an engine that was
started, and any steps of the source, the consumer and the caller that lead to the state of an engine that
has stopped. Then the items that came were all taken, in the order of their coming, and their events are
those that were counted as received. The sink got the writes that it gets when the items are handled one
after the other from the start on, and then was closed. Before the spilled values were removed, the buffer
and the pending records were those of that sequential run. The consumer told what the sequential run
tells, and nobody else told what became of an event. -/
theorem stopped_as_sequential (hq : env.Quiet) (hk : ∀ v, Oblivious (Drain.write v : SinkAction κ Unit))
    {idle s : Session σ (Recorded κ)} (hstart : perform (start env) idle = (.ok (some .startingSource), s))
    (hc : Reaches env (Interleaving.begun s) c) (hstopped : c.session.engine.state = .stopped) :
    ∃ (t : Session σ (Recorded κ)) (closing : Interleaving σ (Recorded κ)) (written : List Value),
      perform (handleAll env c.arrived) s = (.ok (), t) ∧
      c.taken = c.arrived ∧
      eventsReceived c.session = eventsReceived s + c.arrived.countP isEvent ∧
      sinkCalls t = sinkCalls s ++ written.map .write ∧
      sinkCalls c.session = sinkCalls s ++ written.map .write ++ [.close] ∧
      (Reaches env (Interleaving.begun s) closing ∧ Reaches env closing c ∧ closing.call = some .closingSink ∧
        closing.session.engine.buffer = t.engine.buffer ∧ closing.session.engine.spill = t.engine.spill) ∧
      c.session.engine.buffer = t.engine.buffer ∧
      t.world.notices = s.world.notices ++ c.told ∧
      c.session.world.notices.filter isProgress = t.world.notices.filter isProgress := by
  have hsink := (start_begun hstart).2.2.2
  rcases (Invariant.begun hstart).reaches hq hk hsink hc with ⟨-, hphase⟩ | ⟨b, hb, hbc, hf, hcl, hclosed⟩
  · exfalso
    rcases hphase with hopen | hemp | hcl
    · have hattended := hopen.call
      rw [hstopped] at hattended
      generalize c.call = call at hattended
      cases hattended
    · cases hemp.state.symm.trans hstopped
    · cases hcl.state.symm.trans hstopped
  · obtain ⟨htaken, t, ht, hcore⟩ := hf.settled (by rw [hcl.consumer]; rfl) hcl.waiting
    obtain ⟨r, hr⟩ := Option.isSome_iff_exists.1 hsink
    obtain ⟨r', written, hr', hcalls⟩ := writes_handleAll env b.arrived s r hr
    rw [ht.result] at hr'
    have hbuffer : b.session.engine.buffer = t.engine.buffer := congrArg (fun c => c.store.buffer) hcore
    have hwrites : sinkCalls t = sinkCalls s ++ written.map .write := by
      rw [sinkCalls, hr', sinkCalls, hr]
      exact hcalls
    have hcallsb : sinkCalls b.session = sinkCalls t := by
      rw [sinkCalls, show b.session.engine.sink = t.engine.sink from congrArg Core.sink hcore]
      rfl
    refine ⟨t, b, written, ?_, ?_, ?_, hwrites, ?_, ⟨hb, hbc, hcl.call, hbuffer, ?_⟩, ?_, ?_, ?_⟩
    · rw [hclosed.arrived, ht.result]
    · rw [hclosed.taken, hclosed.arrived, htaken]
    · rw [hclosed.counted, hf.counted, hclosed.arrived]
    · rw [hclosed.sink, hcallsb, hwrites]
    · exact congrArg (fun c => c.store.spill) hcore
    · rw [hclosed.buffer, hbuffer]
    · rw [hclosed.told, ht.told]
    · rw [hclosed.progress, hf.progress, ht.told, List.filter_append]

end

/-! ### A run in memory -/

/-- Connectors in memory; the sink keeps its calls, and nobody listens. -/
def inMemory : Environment MemorySource (Recorded MemorySink) where
  registry :=
    { sources := [("memory", fun _ config => MemorySource.ofConfig config)]
      sinks := [("memory", fun _ config => (MemorySink.ofConfig config).map fun sink => ⟨sink, []⟩)] }
  subscriber := fun _ _ => .silent

/-- An engine without stages, about to start its source. -/
def aboutToStart : Session MemorySource (Recorded MemorySink) where
  engine :=
    { stages := []
      settings := Settings.default
      log := ⟨[], [], [], [], RunLog.zeroMetrics⟩
      state := .idle
      source := none
      sink := none
      lastError := none
      queue := none
      consumer := .absent
      ended := none
      buffer := []
      spill := Spill.none ⟨"/work/", ["spilled"]⟩ }
  world := ⟨⟨some ⟨"memory", []⟩, some ⟨"memory", []⟩, [], 1, true⟩, ⟨.empty "/work", [], []⟩, ⟨[]⟩, 1, []⟩

/-- A start that has come to the source. -/
def starting : Interleaving MemorySource (Recorded MemorySink) := begun (perform (start inMemory) aboutToStart).2

namespace Interleaving

/-- The source sends a signal. -/
def send (signal : SourceSignal) (c : Interleaving MemorySource (Recorded MemorySink)) :
    Interleaving MemorySource (Recorded MemorySink) :=
  c.afterOthers (perform (sourceStep inMemory id (some signal)) c.session).2 c.call

/-- The consumer makes a step. -/
def consume (c : Interleaving MemorySource (Recorded MemorySink)) :
    Interleaving MemorySource (Recorded MemorySink) :=
  c.afterConsumer (perform (Engine.consume inMemory) c.session).2

/-- The caller goes on with a call. -/
def goOn (call : EngineCall) (next : Option EngineCall) (c : Interleaving MemorySource (Recorded MemorySink)) :
    Interleaving MemorySource (Recorded MemorySink) :=
  c.afterOthers (perform (proceed inMemory call) c.session).2 next

/-- The caller stops the engine. -/
def stop (c : Interleaving MemorySource (Recorded MemorySink)) : Interleaving MemorySource (Recorded MemorySink) :=
  c.afterOthers (perform (Engine.stop inMemory) c.session).2 (some (.stoppingSource false))

theorem step_send {c : Interleaving MemorySource (Recorded MemorySink)} (signal : SourceSignal) (h : c.sourceActs) :
    Step inMemory c (c.send signal) :=
  .source c id (some signal) h

theorem step_consume (c : Interleaving MemorySource (Recorded MemorySink)) : Step inMemory c c.consume :=
  .consumer c

theorem step_goOn {c : Interleaving MemorySource (Recorded MemorySink)} {call : EngineCall} {next : Option EngineCall}
    (hc : c.call = some call) (hstart : call = .startingSource → next = none)
    (h : (perform (proceed inMemory call) c.session).1 = .ok next) : Step inMemory c (c.goOn call next) :=
  .caller c call next _ hc hstart (Prod.ext h rfl)

theorem step_stop {c : Interleaving MemorySource (Recorded MemorySink)} (hc : c.call = none)
    (h : (perform (Engine.stop inMemory) c.session).1 = .ok (some (.stoppingSource false))) :
    Step inMemory c c.stop :=
  .stop c _ _ hc (Prod.ext h rfl)

end Interleaving

open Interleaving (step_send step_consume step_goOn step_stop)

/-- The second event comes while the consumer is held up at the write of the first one. -/
def heldUp : Interleaving MemorySource (Recorded MemorySink) :=
  (((starting.goOn .startingSource none).send (.data (.int 1))).consume).send (.data (.int 2))

/-- The end comes while the engine is being stopped. -/
def toldToLeave : Interleaving MemorySource (Recorded MemorySink) :=
  (heldUp.stop.send .finished).goOn (.stoppingSource false) (some .emptyingQueue)

/-- The engine has stopped. -/
def atRest : Interleaving MemorySource (Recorded MemorySink) :=
  (toldToLeave.consume.consume.consume.consume.consume.goOn .emptyingQueue (some .closingSink)).goOn .closingSink none

/-- Both events are written, one after the other, although the stop came between them. -/
theorem stopped_as_sequential_at_rest :
    atRest.session.engine.state = .stopped ∧ atRest.arrived = [.event (.int 1), .event (.int 2), .finished] ∧
      ∃ t, perform (handleAll inMemory atRest.arrived) starting.session = (.ok (), t) ∧
        sinkCalls atRest.session = sinkCalls t ++ [.close] := by
  have hheld : Reaches inMemory starting heldUp := by
    refine .tail (.tail (.tail (.single (step_goOn rfl (fun _ => rfl) rfl)) (step_send _ ?_)) (step_consume _))
      (step_send _ ?_)
    all_goals exact (rfl : EngineState.running = EngineState.running)
  have hleave : Reaches inMemory heldUp toldToLeave := by
    refine .tail (.tail (.single (step_stop rfl rfl)) (step_send _ trivial)) (step_goOn rfl ?_ rfl)
    exact fun h => by cases h
  have hrest : Reaches inMemory toldToLeave atRest := by
    refine .tail (.tail (.tail (.tail (.tail (.tail (.single (step_consume _)) (step_consume _)) (step_consume _))
      (step_consume _)) (step_consume _)) (step_goOn rfl ?_ ?_)) (step_goOn rfl ?_ ?_)
    · exact fun h => by cases h
    · decide +kernel
    · exact fun h => by cases h
    · decide +kernel
  have hstopped : atRest.session.engine.state = .stopped := by decide +kernel
  have hstart : perform (start inMemory) aboutToStart = (.ok (some .startingSource), starting.session) := rfl
  obtain ⟨t, closing, written, ht, -, -, hw, hc, -⟩ := stopped_as_sequential (fun _ _ => rfl)
    oblivious_write_memory hstart (hheld.trans (hleave.trans hrest)) hstopped
  exact ⟨hstopped, by decide +kernel, t, ht, by rw [hc, hw]⟩

end Engine

end EventPipeline