import EventPipeline.Engine.Lifecycle
import EventPipeline.Proofs.Engine.Interleaving

/-!
# What the source and the caller do meanwhile

The steps of the two parties that do not handle items, one by one. The source puts items into the queue or
has failures reported (`source_step`). The caller brings the start to its end, tells the source and then
the consumer to stop, waits until the consumer has left, closes the sink, and removes the spilled values.
Up to the last two, all that these steps do is beside the handling of items (`Beside`); the last two
spare the buffer (`Spared`).
-/

namespace EventPipeline

variable {σ κ : Type}

namespace Engine

/-! ### What others do -/

/-- The step puts items into the queue, from one session to another, and keeps to itself otherwise. -/
structure Puts {α : Type} (items : List QueueItem) (a : EngineAction σ κ α) (s : Session σ κ) (x : α)
    (t : Session σ κ) : Prop where
  /-- The result and the session after it. -/
  result : perform a s = (.ok x, t)
  /-- The items have come, and nothing else has changed for the consumer. -/
  beside : Beside items s t
  /-- The engine is in the same state. -/
  state : t.engine.state = s.engine.state

theorem Puts.pure {α : Type} (x : α) (s : Session σ κ) : Puts [] (pure x) s x s :=
  ⟨rfl, refl_of (Beside []) s, rfl⟩

theorem Puts.bind {α β : Type} {xs ys : List QueueItem} {a : EngineAction σ κ α} {k : α → EngineAction σ κ β}
    {s t u : Session σ κ} {x : α} {y : β} (h : Puts xs a s x t) (h' : Puts ys (k x) t y u) :
    Puts (xs ++ ys) (a >>= k) s y u where
  result := by rw [perform_bind_ok h.result, h'.result]
  beside := h.beside.trans h'.beside
  state := h'.state.trans h.state

/-- A session with one more item in its queue. -/
def withItem (item : QueueItem) (s : Session σ κ) : Session σ κ :=
  { s with engine.queue := s.engine.queue.map (·.put item) }

theorem waiting_withItem (item : QueueItem) {s : Session σ κ} (h : s.engine.queue.isSome) :
    waiting (withItem item s) = waiting s ++ [item] := by
  obtain ⟨q, hq⟩ := Option.isSome_iff_exists.1 h
  simp [waiting, withItem, hq, Queue.put]

theorem puts_put {item : QueueItem} (hi : isEvent item = false) {s : Session σ κ} (h : s.engine.queue.isSome) :
    Puts [item] (put item) s () (withItem item s) := by
  refine ⟨rfl, ⟨rfl, rfl, ?_, waiting_withItem item h, by simp [hi, eventsReceived, withItem], rfl⟩, rfl⟩
  exact Option.isSome_map

/-- What comes of a step of the source, if there is one. -/
theorem perform_onSource {α : Type} (step : Source σ → Except Failure α × Source σ) (otherwise : α) {source : Source σ}
    {s : Session σ κ} (hs : s.engine.source = some source) :
    perform (onSource step otherwise) s = ((step source).1, { s with engine.source := some (step source).2 }) := by
  rw [onSource, perform_bind_ok (perform_get s), hs]
  rcases h : step source with ⟨_ | _, _⟩ <;> simp only [h] <;> rfl

theorem puts_onSource {α : Type} (step : Source σ → Except Failure α × Source σ) (otherwise : α) (s : Session σ κ) :
    ∃ r t, Puts [] (attempt (onSource step otherwise)) s r t := by
  cases hs : s.engine.source with
  | none =>
    refine ⟨.ok otherwise, s, ?_, refl_of (Beside []) s, rfl⟩
    rw [attempt, perform_lift, onSource, perform_bind_ok (perform_get s), hs]
    rfl
  | some source =>
    refine ⟨(step source).1, { s with engine.source := some (step source).2 }, ?_,
      ⟨rfl, rfl, rfl, (List.append_nil _).symm, (add_zero _).symm, rfl⟩, rfl⟩
    rw [attempt, perform_lift, perform_onSource step otherwise hs]

section

variable {env : Environment σ κ} (hq : env.Quiet)

include hq

theorem puts_signal {sig : EngineSignal} (hs : isProgress (.engine sig) = false) (s : Session σ κ) :
    Puts [] (signal env sig) s () (withTold env (.engine sig) s) := by
  refine ⟨(gives_tell hq _ s).result, ⟨rfl, rfl, rfl, (List.append_nil _).symm, (add_zero _).symm, ?_⟩, rfl⟩
  simp [withTold, hs]

/-- Failures are reported without telling what became of events. -/
theorem puts_report (f : Failure) (s : Session σ κ) : ∃ t, Puts [] (report env f) s () t := by
  have hlog : ∀ s : Session σ κ, Puts [] (change fun e => { e with lastError := some f }) s ()
      { s with engine.lastError := some f } :=
    fun s => ⟨rfl, ⟨rfl, rfl, rfl, (List.append_nil _).symm, (add_zero _).symm, rfl⟩, rfl⟩
  have hcount : ∀ s : Session σ κ, Puts [] (count .errors 1) s ()
      { s with engine.log := s.engine.log.count .errors 1 } :=
    fun s => ⟨rfl, ⟨rfl, rfl, rfl, (List.append_nil _).symm,
      (RunLog.counter_count_of_ne _ (by decide) _).trans (add_zero _).symm, rfl⟩, rfl⟩
  have hrecord : ∀ (stage level message : Text) (extra : Fields) (s : Session σ κ),
      Puts [] (record stage level message extra) s ()
        { s with engine.log := s.engine.log.log ⟨stage, level, message, extra⟩ } :=
    fun _ _ _ _ s => ⟨rfl, ⟨rfl, rfl, rfl, (List.append_nil _).symm, (add_zero _).symm, rfl⟩, rfl⟩
  exact ⟨_, (hlog s).bind ((hcount _).bind ((hrecord _ _ _ _ _).bind (puts_signal hq rfl _)))⟩

/-- **What the source sends is put into the queue or reported.** -/
theorem puts_hear (sent : SourceSignal) {s : Session σ κ} (h : s.engine.queue.isSome) :
    ∃ items t, .stop ∉ items ∧ Puts items (hear env sent) s () t := by
  cases sent with
  | data v =>
    refine ⟨[.event v], withItem (.event v) { s with engine.log := s.engine.log.count .received 1 },
      by simp, ?_, ⟨rfl, rfl, Option.isSome_map, waiting_withItem _ h, ?_, rfl⟩, rfl⟩
    · rw [hear, perform_bind_ok (perform_get s), if_pos h]
      rfl
    · exact RunLog.counter_count_self _ _ _
  | finished => exact ⟨[.finished], _, by decide, puts_put rfl h⟩
  | error f =>
    obtain ⟨t, ht⟩ := puts_report hq f s
    exact ⟨[], t, List.not_mem_nil, ht⟩

end

/-! ### Steps of the source and the caller -/

/-- The session after the engine has entered a state. -/
def entered (state : EngineState) (s : Session σ κ) : Session σ κ :=
  (perform (enter state) s).2

theorem perform_enter (state : EngineState) (s : Session σ κ) : perform (enter state) s = (.ok (), entered state s) :=
  rfl

theorem beside_entered (state : EngineState) (s : Session σ κ) : Beside [] s (entered state s) :=
  ⟨rfl, rfl, rfl, (List.append_nil _).symm, (add_zero _).symm, rfl⟩

theorem active_ne_absent {consumer : Consumer} (h : isActive consumer) : consumer ≠ .absent := by
  rintro rfl
  cases h

section

variable {env : Environment σ κ}

/-- Once the source has stopped, the consumer is told to leave. -/
theorem perform_afterSource {s : Session σ κ} (hqueue : s.engine.queue.isSome)
    (hact : isActive s.engine.consumer) :
    perform (afterSource env) s = (.ok (some .emptyingQueue), withItem .stop s) := by
  rw [afterSource, perform_bind_ok (perform_get s)]
  cases hc : s.engine.consumer with
  | absent => exact absurd hc (active_ne_absent hact)
  | _ =>
    simp only [hc, hqueue, if_true]
    rfl

theorem perform_afterConsumer {s : Session σ κ} (hsink : s.engine.sink.isSome) :
    perform (afterConsumer env) s = (.ok (some .closingSink), s) := by
  rw [afterConsumer, perform_bind_ok (perform_get s), if_pos hsink]
  rfl

/-- The caller looks whether the consumer has left. -/
theorem awaitConsumer_step {s t : Session σ κ} {next : Option EngineCall}
    (hsink : isActive s.engine.consumer = false → s.engine.sink.isSome)
    (hp : perform (awaitConsumer env) s = (.ok next, t)) :
    (next = some .emptyingQueue ∧ t = s) ∨
      (isActive s.engine.consumer = false ∧ next = some .closingSink ∧
        t = { s with engine.consumer := .absent }) := by
  rw [awaitConsumer, perform_bind_ok (perform_get s)] at hp
  cases hc : s.engine.consumer with
  | waiting | writing =>
    simp only [hc] at hp
    cases hp
    exact .inl ⟨rfl, rfl⟩
  | broken | cancelled =>
    simp only [hc] at hp
    cases hp
  | absent =>
    simp only [hc] at hp
    cases (perform_afterConsumer (hsink (by rw [hc]; rfl))).symm.trans hp
    refine .inr ⟨rfl, rfl, ?_⟩
    rw [← hc]
  | _ =>
    -- the consumer has left
    simp only [hc] at hp
    have hlast : perform (afterConsumer env) { s with engine.consumer := .absent } = _ :=
      perform_afterConsumer (hsink (by rw [hc]; rfl))
    cases hlast.symm.trans hp
    exact .inr ⟨rfl, rfl, rfl⟩

theorem beside_stop {s : Session σ κ} (hqueue : s.engine.queue.isSome) : Beside [.stop] s (withItem .stop s) :=
  (puts_put rfl hqueue).beside

/-- The engine is told to stop. -/
theorem stop_step [Feed σ] {s t : Session σ κ} {next : Option EngineCall} (hstate : s.engine.state = .running)
    (hqueue : s.engine.queue.isSome) (hact : isActive s.engine.consumer)
    (hp : perform (Engine.stop env) s = (.ok next, t)) :
    t.engine.state = .stopping ∧
      ((∃ announces, next = some (.stoppingSource announces) ∧ Beside [] s t) ∨
        (next = some .emptyingQueue ∧ Beside [.stop] s t)) := by
  rw [Engine.stop, perform_bind_ok (perform_get s), hstate] at hp
  simp only at hp
  rw [perform_bind_ok (perform_enter _ s), perform_bind_ok (perform_get _)] at hp
  cases hs : (entered .stopping s).engine.source with
  | none =>
    simp only [hs] at hp
    rw [perform_afterSource (s := entered .stopping s) hqueue hact] at hp
    cases hp
    exact ⟨rfl, .inr ⟨rfl, (beside_entered _ s).trans (beside_stop hqueue)⟩⟩
  | some source =>
    simp only [hs] at hp
    cases hp
    exact ⟨rfl, .inl ⟨_, rfl, ⟨rfl, rfl, rfl, (List.append_nil _).symm, (add_zero _).symm, rfl⟩⟩⟩

variable (hq : env.Quiet)

include hq

/-- The source acts. -/
theorem source_step (f : Source σ → Source σ) (sent : Option SourceSignal) {s : Session σ κ}
    (h : s.engine.queue.isSome) : ∃ items t, .stop ∉ items ∧ Puts items (sourceStep env f sent) s () t := by
  have hchange : Puts [] (change fun e => { e with source := e.source.map f }) s ()
      { s with engine.source := s.engine.source.map f } :=
    ⟨rfl, ⟨rfl, rfl, rfl, (List.append_nil _).symm, (add_zero _).symm, rfl⟩, rfl⟩
  cases sent with
  | none => exact ⟨[], _, List.not_mem_nil, hchange⟩
  | some sent =>
    obtain ⟨items, t, hi, ht⟩ := puts_hear hq sent (s := { s with engine.source := s.engine.source.map f }) h
    exact ⟨items, t, hi, hchange.bind ht⟩

variable [Feed σ]

/-- The start comes to its end. -/
theorem startSource_step {s t : Session σ κ} (hact : isActive s.engine.consumer)
    (hp : perform (startSource env) s = (.ok none, t)) : Beside [] s t ∧ t.engine.state = .running := by
  obtain ⟨r, u, hu⟩ := puts_onSource Source.start () s
  rw [startSource, perform_bind_ok hu.result] at hp
  cases r with
  | ok _ =>
    simp only at hp
    rw [perform_bind_ok (perform_enter _ u), perform_bind_ok (puts_signal hq rfl _).result] at hp
    cases hp
    refine ⟨?_, rfl⟩
    exact trans_of (Beside []) hu.beside (trans_of (Beside []) (beside_entered _ u) (puts_signal hq rfl _).beside)
  | error f =>
    rw [← hu.beside.consumer] at hact
    simp only at hp
    rw [perform_bind_ok (perform_get u)] at hp
    cases hc : u.engine.consumer with
    | absent => exact absurd hc (active_ne_absent hact)
    | _ =>
      simp only [hc] at hp
      cases hp

omit [Feed σ] in
/-- A failure of the source is reported and what it emitted is heard; no stop is put into the queue. -/
theorem puts_afterStop (r : Except Failure (Option SourceSignal)) {s : Session σ κ} (hqueue : s.engine.queue.isSome) :
    ∃ items t, .stop ∉ items ∧ Puts items
      (match r with
        | .ok none => pure ()
        | .ok (some s) => hear env s
        | .error f => report env f) s () t := by
  rcases r with f | _ | sent
  · obtain ⟨t, ht⟩ := puts_report hq f s
    exact ⟨[], t, List.not_mem_nil, ht⟩
  · exact ⟨[], s, List.not_mem_nil, Puts.pure _ s⟩
  · exact puts_hear hq sent hqueue

/-- The source has stopped, and may have announced the end meanwhile. -/
theorem stopSource_step {s t : Session σ κ} {next : Option EngineCall} {announces : Bool}
    (hqueue : s.engine.queue.isSome) (hact : isActive s.engine.consumer)
    (hp : perform (stopSource env announces) s = (.ok next, t)) :
    next = some .emptyingQueue ∧ t.engine.state = s.engine.state ∧
      ∃ items, .stop ∉ items ∧ Beside (items ++ [.stop]) s t := by
  obtain ⟨r, u, hu⟩ := puts_onSource (Source.finishStop announces) none s
  have huq : u.engine.queue.isSome := hu.beside.queue.trans hqueue
  obtain ⟨items, v, hi, hv⟩ := puts_afterStop hq r huq
  have hsv := hu.beside.trans hv.beside
  have hlast : perform (afterSource env) v = (.ok (some .emptyingQueue), withItem .stop v) :=
    perform_afterSource (hsv.queue.trans hqueue) (by rw [hsv.consumer]; exact hact)
  have hrun : perform (stopSource env announces) s = (.ok (some .emptyingQueue), withItem .stop v) := by
    rw [stopSource, perform_bind_ok hu.result]
    rcases r with f | _ | sent
    · exact (perform_bind_ok hv.result).trans hlast
    · obtain rfl : u = v := congrArg Prod.snd hv.result
      exact hlast
    · exact (perform_bind_ok hv.result).trans hlast
  rw [hrun] at hp
  cases hp
  refine ⟨rfl, hv.state.trans hu.state, items, hi, ?_⟩
  exact hsv.trans (beside_stop (hsv.queue.trans hqueue))

end

/-! ### Closing the sink -/

/-- What the removal of spilled values leaves alone. -/
structure Spared (s t : Session σ κ) : Prop where
  /-- The sink. -/
  sink : t.engine.sink = s.engine.sink
  /-- The buffer. -/
  buffer : t.engine.buffer = s.engine.buffer
  /-- The consumer. -/
  consumer : t.engine.consumer = s.engine.consumer
  /-- The items in the queue. -/
  waiting : waiting t = Engine.waiting s
  /-- The number of events received. -/
  counted : eventsReceived t = eventsReceived s
  /-- What was told about events. -/
  progress : t.world.notices.filter isProgress = s.world.notices.filter isProgress

instance : IsPreorder (Session σ κ) Spared where
  refl _ := ⟨rfl, rfl, rfl, rfl, rfl, rfl⟩
  trans _ _ _ h h' := ⟨h'.sink.trans h.sink, h'.buffer.trans h.buffer, h'.consumer.trans h.consumer,
    h'.waiting.trans h.waiting, h'.counted.trans h.counted, h'.progress.trans h.progress⟩

theorem Beside.spared {s t : Session σ κ} (h : Beside [] s t) : Spared s t :=
  ⟨congrArg Core.sink h.core, congrArg (fun c => c.store.buffer) h.core, h.consumer,
    h.waiting.trans (List.append_nil _), h.counted.trans (add_zero _), h.progress⟩

section

variable {env : Environment σ κ} (hq : env.Quiet)

include hq

theorem spared_report (f : Failure) : Leads Spared (report env f) := by
  intro s
  obtain ⟨t, ht⟩ := puts_report hq f s
  rw [ht.result]
  exact ht.beside.spared

theorem spared_discardSpill : Leads Spared (discardSpill env) := by
  refine Leads.bind Leads.get fun s => Leads.bind (fun s => ?_) fun failures => ?_
  · obtain ⟨files, hfiles⟩ := Spill.discardAll_eq s.store
    rw [perform_onSpill]
    exact ⟨rfl, congrArg SpillState.buffer hfiles, rfl, rfl, rfl, rfl⟩
  · refine Leads.bind (Leads.forM (spared_report hq) _) fun _ => fun s => ?_
    unfold logDiscarded
    split_ifs
    · exact refl_of Spared s
    · exact ⟨rfl, rfl, rfl, rfl, rfl, rfl⟩

end

section

variable [Drain κ] {env : Environment σ (Recorded κ)} (hq : env.Quiet)

include hq

/-- The sink is closed, whether it fails or not. -/
theorem closeSink_step {s t : Session σ (Recorded κ)} {r : Recorded κ} (hs : s.engine.sink = some r)
    (hp : perform (closeSink env) s = (.ok (), t)) :
    ∃ (r' : Recorded κ) (host : Host), r'.calls = r.calls ++ [.close] ∧ Spared (withSink s r' host) t := by
  have hpass : perform (Drain.close : SinkAction (Recorded κ) Unit) (r, s.world.host) = _ :=
    Recorded.perform_passing .close Drain.close r s.world.host
  rcases hcl : perform (Drain.close : SinkAction κ Unit) (r.sink, s.world.host) with ⟨result, k, host⟩
  rw [hcl] at hpass
  have h : perform (onSink Drain.close : EngineAction σ (Recorded κ) Unit) s = _ := perform_onSink Drain.close s
  simp only [hs, hpass] at h
  refine ⟨⟨k, r.calls ++ [.close]⟩, host, rfl, ?_⟩
  rw [closeSink, attempt, perform_bind_ok (perform_lift _ s), h] at hp
  cases result with
  | error f =>
    have hreport := spared_report hq (sinkFailure "Sink close error" f) (withSink s ⟨k, r.calls ++ [.close]⟩ host)
    simp only at hp
    rw [hp] at hreport
    exact hreport
  | ok _ =>
    cases hp
    exact refl_of Spared _

end

/-! ### The start -/

theorem eq_of_liftExcept {α : Type} {r : Except Failure α} {s t : Session σ κ} {x : α}
    (h : perform (makeConnectors.liftExcept r) s = (.ok x, t)) : t = s := by
  cases r <;> cases h
  rfl

/-- Connectors that were made are there. -/
theorem sink_of_makeConnectors {env : Environment σ κ} {s t : Session σ κ}
    (h : perform (makeConnectors env) s = (.ok (), t)) :
    t.engine.state = s.engine.state ∧ t.engine.sink.isSome := by
  rw [makeConnectors, perform_bind_ok (perform_get s)] at h
  dsimp only at h
  split at h
  · cases h
  · cases h
  · obtain ⟨feed, s₁, h₁, hrest⟩ := perform_bind_eq_ok h
    obtain ⟨⟨⟩, s₂, h₂, hrest⟩ := perform_bind_eq_ok hrest
    obtain ⟨drain, s₃, h₃, hlast⟩ := perform_bind_eq_ok hrest
    cases h₂
    cases hlast
    rw [eq_of_liftExcept h₃, eq_of_liftExcept h₁]
    exact ⟨rfl, rfl⟩

/-- A start that is given up has failed. -/
theorem giveUp_fails {env : Environment σ κ} {f : Failure} {s t : Session σ κ} {next : Option EngineCall} :
    perform (giveUp env f) s ≠ (.ok next, t) := by
  intro h
  obtain ⟨-, s₁, -, h⟩ := perform_bind_eq_ok h
  obtain ⟨-, s₂, -, h⟩ := perform_bind_eq_ok h
  cases h

/-- A start that has come to the source has made the sink, and a queue where a consumer waits. -/
theorem start_begun {env : Environment σ κ} {s t : Session σ κ}
    (h : perform (start env) s = (.ok (some .startingSource), t)) :
    t.engine.state = .initializing ∧ t.engine.queue = some ⟨[], 0⟩ ∧ t.engine.consumer = .waiting ∧
      t.engine.sink.isSome := by
  rw [start, perform_bind_ok (perform_get s)] at h
  split_ifs at h with hidle
  · cases h
  · rw [perform_bind_ok (perform_enter _ s), attempt, perform_bind_ok (perform_lift _ _)] at h
    rcases hm : perform (makeConnectors env) (entered .initializing s) with ⟨f | ⟨⟩, u⟩
    · simp only [hm] at h
      rw [abandon, perform_bind_ok (perform_get u)] at h
      split_ifs at h
      · cases h
      · exact absurd h giveUp_fails
    · simp only [hm] at h
      cases h
      obtain ⟨hstate, hsink⟩ := sink_of_makeConnectors hm
      exact ⟨hstate, rfl, rfl, hsink⟩

end Engine

end EventPipeline
