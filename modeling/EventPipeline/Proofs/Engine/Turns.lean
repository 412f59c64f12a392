import EventPipeline.Proofs.Engine.Parts
import EventPipeline.Proofs.Engine.Subscribers

/-!
# How starts and stops come out

If no subscriber fails on errors, a start of an engine has three outcomes only: it waits, the engine runs, or the
start has failed and the engine is idle again; and a stop has two: it waits, or the engine has stopped (`Comes`). For
this the consumer must not have broken down before, nor have been called off, and it does not, whatever happens
(`background_consume`).
-/

namespace EventPipeline

variable {σ κ α : Type}

namespace Consumer

/-- The consumer has not broken down. -/
def isIntact : Consumer → Bool
  | broken _ => false
  | _ => true

/-- The consumer has neither broken down nor been called off. -/
def isWell : Consumer → Bool
  | broken _ | cancelled => false
  | _ => true

theorem isIntact_of_isWell {c : Consumer} (h : c.isWell = true) : c.isIntact = true := by
  cases c <;> first | rfl | cases h

end Consumer

namespace Engine

/-- The consumer is fit for what a call does next. A start that has failed calls the consumer off. -/
def fits (c : Consumer) : EngineCall → Bool
  | .leavingConsumer _ | .abandoningSink _ => c.isIntact
  | _ => c.isWell

/-! ### Steps in the background -/

/-- The engine stays in its state, and the consumer stays as well as it is. -/
structure Background (e e' : Engine σ κ) : Prop where
  /-- The state is the same. -/
  state : e'.state = e.state
  /-- The consumer does not break down. -/
  intact : e.consumer.isIntact = true → e'.consumer.isIntact = true
  /-- The consumer is not called off. -/
  well : e.consumer.isWell = true → e'.consumer.isWell = true

theorem Background.refl (e : Engine σ κ) : Background e e := ⟨rfl, id, id⟩

theorem Background.fits {e e' : Engine σ κ} (h : Background e e') {call : EngineCall}
    (hf : Engine.fits e.consumer call = true) : Engine.fits e'.consumer call = true := by
  cases call <;> first | exact h.intact hf | exact h.well hf

/-- Nothing was announced for the pipeline, and its definition is the same. -/
structure Own (s t : Session σ κ) : Prop where
  /-- The definition is the same. -/
  definition : t.world.definition = s.world.definition
  /-- There is no new announcement. -/
  announced : ∀ a, t.world.notices.count (.pipeline a) = s.world.notices.count (.pipeline a)

instance : IsPreorder (Session σ κ) Own where
  refl _ := ⟨rfl, fun _ => rfl⟩
  trans _ _ _ h h' := ⟨h'.definition.trans h.definition, fun a => (h'.announced a).trans (h.announced a)⟩

theorem own_onSpill (action : Spilling α) : Leads Own (onSpill action : EngineAction σ κ α) := by
  intro s
  rw [perform_onSpill]
  exact ⟨rfl, fun _ => rfl⟩

theorem own_onSink (action : SinkAction κ α) : Leads Own (onSink action : EngineAction σ κ α) := by
  intro s
  rw [perform_onSink]
  cases s.engine.sink with
  | none => exact refl_of Own s
  | some k => exact ⟨rfl, fun _ => rfl⟩

/-- **No step of an engine** announces anything for the pipeline or changes its definition. -/
theorem compositional_own [Drain κ] (env : Environment σ κ) : Compositional env (fun a => Leads Own a) where
  pure _ := Leads.pure _
  throw _ := Leads.throw _
  bind := Leads.bind
  attempt h := Leads.lift h
  look _ h := Leads.bind Leads.get h
  change _ := Leads.modify fun _ => ⟨rfl, fun _ => rfl⟩
  signal sig := by
    intro s
    rw [signal, perform_tell]
    exact ⟨rfl, fun a => by simp [withTold]⟩
  write _ := own_onSink _
  close := own_onSink _
  runChain v := Leads.bind Leads.get fun s => fun _ => ⟨rfl, fun _ => rfl⟩
  flush _ := fun _ => ⟨rfl, fun _ => rfl⟩
  trim := Leads.bind Leads.get fun _ => Leads.lift (own_onSpill _)
  reload := own_onSpill _
  discard := own_onSpill _

/-! ### Steps that pass -/

/-- The engine stays in its state, and the consumer where it is. -/
structure Stays (s t : Session σ κ) : Prop where
  /-- The state is the same. -/
  state : t.engine.state = s.engine.state
  /-- The consumer is the same. -/
  consumer : t.engine.consumer = s.engine.consumer

instance : IsPreorder (Session σ κ) Stays where
  refl _ := ⟨rfl, rfl⟩
  trans _ _ _ h h' := ⟨h'.state.trans h.state, h'.consumer.trans h.consumer⟩

theorem Aside.stays {s t : Session σ κ} (h : Aside s t) : Stays s t := by
  obtain ⟨_, _, _, _, _, _, rfl⟩ := h
  exact ⟨rfl, rfl⟩

theorem stays_change {f : Engine σ κ → Engine σ κ} (h : ∀ e, (f e).state = e.state ∧ (f e).consumer = e.consumer) :
    Leads Stays (change f) :=
  Leads.modify fun s => ⟨(h s.engine).1, (h s.engine).2⟩

theorem stays_onSink (action : SinkAction κ α) : Leads Stays (onSink action : EngineAction σ κ α) := by
  intro s
  rw [perform_onSink]
  cases s.engine.sink with
  | none => exact refl_of Stays s
  | some k => exact ⟨rfl, rfl⟩

theorem stays_onSource (step : Source σ → Except Failure α × Source σ) (otherwise : α) :
    Leads Stays (onSource step otherwise : EngineAction σ κ α) := by
  refine Leads.bind Leads.get fun s => ?_
  cases s.engine.source with
  | none => exact Leads.pure _
  | some source =>
    refine Leads.bind (stays_change fun _ => ⟨rfl, rfl⟩) fun _ => ?_
    cases (step source).1 with
    | ok a => exact Leads.pure _
    | error f => exact Leads.throw _

theorem stays_makeConnectors (env : Environment σ κ) : Leads Stays (makeConnectors env) := by
  have hlift : ∀ {α : Type} (r : Except Failure α),
      Leads Stays (makeConnectors.liftExcept r : EngineAction σ κ α) := by
    intro α r
    cases r with
    | ok a => exact Leads.pure _
    | error f => exact Leads.throw _
  refine Leads.bind Leads.get fun s => ?_
  dsimp only
  split
  · exact Leads.throw _
  · exact Leads.throw _
  · refine Leads.bind (hlift _) fun feed => Leads.bind (stays_change fun _ => ⟨rfl, rfl⟩) fun _ => ?_
    refine Leads.bind (hlift _) fun drain => Leads.bind (stays_change fun _ => ⟨rfl, rfl⟩) fun _ => ?_
    exact stays_change fun _ => ⟨rfl, rfl⟩

/-- The step does not fail, and the engine and its consumer stay as they are. -/
structure Passes (a : EngineAction σ κ α) : Prop where
  /-- The step does not fail. -/
  returns : Returns a
  /-- The engine and its consumer stay as they are. -/
  stays : Leads Stays a

theorem Passes.pure (x : α) : Passes (pure x : EngineAction σ κ α) := ⟨Returns.pure x, Leads.pure x⟩

theorem Passes.get : Passes (get : EngineAction σ κ (Session σ κ)) := ⟨Returns.get, Leads.get⟩

theorem Passes.bind {β : Type} {a : EngineAction σ κ α} {k : α → EngineAction σ κ β} (ha : Passes a)
    (hk : ∀ x, Passes (k x)) : Passes (a >>= k) :=
  ⟨ha.returns.bind fun x => (hk x).returns, Leads.bind ha.stays fun x => (hk x).stays⟩

theorem Passes.attempt {a : EngineAction σ κ α} (h : Leads Stays a) : Passes (attempt a) :=
  ⟨Returns.attempt a, Leads.lift h⟩

theorem Passes.change {f : Engine σ κ → Engine σ κ}
    (h : ∀ e, (f e).state = e.state ∧ (f e).consumer = e.consumer) : Passes (change f) :=
  ⟨Returns.change f, stays_change h⟩

theorem Passes.put (item : QueueItem) : Passes (put item : EngineAction σ κ Unit) :=
  ⟨Returns.change _, stays_change fun _ => ⟨rfl, rfl⟩⟩

section

variable {env : Environment σ κ} (herror : env.QuietOn Notice.isError)

include herror

theorem Passes.report (f : Failure) : Passes (report env f) :=
  ⟨Returns.report herror f, (leads_report env f).mono fun _ _ => Aside.stays⟩

theorem Passes.hear (sent : SourceSignal) : Passes (hear env sent) := by
  cases sent with
  | data v =>
    refine Passes.get.bind fun s => ?_
    split
    · exact Passes.bind (Passes.change fun _ => ⟨rfl, rfl⟩) fun _ => Passes.put _
    · exact Passes.pure _
  | finished => exact Passes.put _
  | error f => exact Passes.report herror f

theorem Passes.sourceStep (f : Source σ → Source σ) (sent : Option SourceSignal) : Passes (sourceStep env f sent) := by
  refine Passes.bind (Passes.change fun _ => ⟨rfl, rfl⟩) fun _ => ?_
  cases sent with
  | none => exact Passes.pure _
  | some sent => exact Passes.hear herror sent

theorem Passes.closeSink [Drain κ] : Passes (closeSink env) := by
  refine (Passes.attempt (stays_onSink _)).bind fun r => ?_
  cases r with
  | ok _ => exact Passes.pure _
  | error f => exact Passes.report herror _

theorem Passes.discardSpill : Passes (discardSpill env) := by
  refine Passes.get.bind fun s => Passes.bind ⟨fun s => ⟨_, _, perform_onSpill _ s⟩, fun s => ?_⟩ fun failures => ?_
  · rw [perform_onSpill]
    exact ⟨rfl, rfl⟩
  · refine Passes.bind ⟨Returns.forM (Returns.report herror) _, Leads.forM (fun f => (Passes.report herror f).stays) _⟩
      fun _ => ?_
    unfold logDiscarded
    split
    · exact Passes.pure _
    · exact Passes.bind (Passes.change fun _ => ⟨rfl, rfl⟩) fun _ => Passes.change fun _ => ⟨rfl, rfl⟩

end

/-! ### Turns -/

/-- What comes of a piece of a call that waits in one state, ends in another one, and fails to a third one. -/
def Comes (kind : EngineCall → Bool) (waits ends fails : EngineState) (r : Except Failure (Option EngineCall))
    (t : Session σ κ) : Prop :=
  match r with
  | .ok (some call) => kind call = true ∧ fits t.engine.consumer call = true ∧ t.engine.state = waits
  | .ok none => t.engine.consumer.isWell = true ∧ t.engine.state = ends
  | .error _ => t.engine.consumer.isWell = true ∧ t.engine.state = fails

/-- What comes of a piece of a start. -/
abbrev StartComes : Except Failure (Option EngineCall) → Session σ κ → Prop :=
  Comes isStarting .initializing .running .idle

/-- What comes of a piece of a stop. -/
abbrev StopComes : Except Failure (Option EngineCall) → Session σ κ → Prop :=
  Comes isStopping .stopping .stopped .stopped

/-- Something that passes may come first. -/
theorem comes_bind {kind : EngineCall → Bool} {waits ends fails : EngineState} {first : EngineAction σ κ α}
    {rest : α → EngineAction σ κ (Option EngineCall)} (hf : Passes first) {s : Session σ κ}
    (hr : ∀ x t, Stays s t → Comes kind waits ends fails (perform (rest x) t).1 (perform (rest x) t).2) :
    Comes kind waits ends fails (perform (first >>= rest) s).1 (perform (first >>= rest) s).2 := by
  obtain ⟨x, t, ht⟩ := hf.returns s
  have hstays := hf.stays s
  rw [ht] at hstays
  rw [perform_bind_ok ht]
  exact hr x t hstays

section

variable {env : Environment σ κ} (herror : env.QuietOn Notice.isError)

include herror

/-! ### Turns of a start -/

theorem comes_giveUp (f : Failure) (s : Session σ κ) :
    StartComes (perform (giveUp env f) s).1 (perform (giveUp env f) s).2 := by
  let dropped : Session σ κ :=
    { s with engine := { s.engine with consumer := .absent, queue := none, source := none, sink := none } }
  have hdrop : perform (giveUp env f) s = perform (do report env f; enter .idle; throw f) dropped := rfl
  rw [hdrop]
  refine comes_bind (Passes.report herror f) fun _ t ht => ⟨?_, rfl⟩
  rw [perform_bind_ok (perform_enter _ t)]
  show t.engine.consumer.isWell = true
  rw [ht.consumer]
  rfl

theorem comes_abandon (f : Failure) {s : Session σ κ} (hstate : s.engine.state = .initializing)
    (hintact : s.engine.consumer.isIntact = true) :
    StartComes (perform (abandon env f) s).1 (perform (abandon env f) s).2 := by
  rw [abandon, perform_bind_ok (perform_get s)]
  split
  · exact ⟨rfl, hintact, hstate⟩
  · exact comes_giveUp herror f s

theorem comes_leaveConsumer (f : Failure) {s : Session σ κ} (hstate : s.engine.state = .initializing)
    (hintact : s.engine.consumer.isIntact = true) :
    StartComes (perform (leaveConsumer env f) s).1 (perform (leaveConsumer env f) s).2 := by
  rw [leaveConsumer, perform_bind_ok (perform_get s)]
  cases hc : s.engine.consumer with
  | broken g =>
    rw [hc] at hintact
    cases hintact
  | _ => exact comes_abandon herror f hstate hintact

/-- Nobody fails when told that the engine runs. -/
theorem comes_startSource [Feed σ] (hstarted : ∀ told, (env.subscriber told (.engine .started)).failure = none)
    {s : Session σ κ} (hstate : s.engine.state = .initializing) (hwell : s.engine.consumer.isWell = true) :
    StartComes (perform (startSource env) s).1 (perform (startSource env) s).2 := by
  refine comes_bind (Passes.attempt (stays_onSource _ _)) fun r t ht => ?_
  rw [← ht.consumer] at hwell
  rw [← ht.state] at hstate
  cases r with
  | ok _ =>
    dsimp only
    rw [perform_bind_ok (perform_enter _ t), perform_bind]
    rw [signal, perform_tell, hstarted]
    exact ⟨hwell, rfl⟩
  | error f =>
    rw [perform_bind_ok (perform_get t)]
    cases hc : t.engine.consumer with
    | absent => exact comes_abandon herror _ hstate (Consumer.isIntact_of_isWell hwell)
    | waiting | writing => exact ⟨rfl, rfl, hstate⟩
    | broken | cancelled =>
      rw [hc] at hwell
      cases hwell
    | _ => exact ⟨rfl, Consumer.isIntact_of_isWell hwell, hstate⟩

/-- **What comes of a start that goes on.** -/
theorem comes_starting [Feed σ] [Drain κ] (hstarted : ∀ told, (env.subscriber told (.engine .started)).failure = none)
    {call : EngineCall} (hcall : isStarting call = true) {s : Session σ κ} (hstate : s.engine.state = .initializing)
    (hfits : fits s.engine.consumer call = true) :
    StartComes (perform (proceed env call) s).1 (perform (proceed env call) s).2 := by
  cases call with
  | startingSource => exact comes_startSource herror hstarted hstate hfits
  | leavingConsumer f => exact comes_leaveConsumer herror f hstate hfits
  | abandoningSink f => exact comes_bind (Passes.closeSink herror) fun _ t _ => comes_giveUp herror f t
  | _ => cases hcall

/-- **What comes of a start that begins.** -/
theorem comes_start {s : Session σ κ} (hidle : s.engine.state = .idle) (hwell : s.engine.consumer.isWell = true) :
    StartComes (perform (Engine.start env) s).1 (perform (Engine.start env) s).2 := by
  rw [Engine.start, perform_bind_ok (perform_get s), if_neg (fun hne => hne hidle), perform_bind_ok (perform_enter _ s)]
  refine comes_bind (Passes.attempt (stays_makeConnectors env)) fun r t ht => ?_
  cases r with
  | error f =>
    refine comes_abandon herror f ht.state ?_
    rw [ht.consumer]
    exact Consumer.isIntact_of_isWell hwell
  | ok _ => exact ⟨rfl, rfl, ht.state⟩

/-! ### Turns of a stop -/

theorem comes_finishStop {s : Session σ κ} (hwell : s.engine.consumer.isWell = true) :
    StopComes (perform (finishStop env) s).1 (perform (finishStop env) s).2 := by
  refine comes_bind (Passes.discardSpill herror) fun _ t ht => ?_
  rw [← ht.consumer] at hwell
  rw [perform_bind_ok (perform_enter _ t), perform_bind, signal, perform_tell]
  cases (env.subscriber (entered .stopped t).world.notices (.engine .stopped)).failure with
  | none => exact ⟨hwell, rfl⟩
  | some f => exact ⟨hwell, rfl⟩

theorem comes_afterConsumer {s : Session σ κ} (hstate : s.engine.state = .stopping)
    (hwell : s.engine.consumer.isWell = true) :
    StopComes (perform (Engine.afterConsumer env) s).1 (perform (Engine.afterConsumer env) s).2 := by
  rw [Engine.afterConsumer, perform_bind_ok (perform_get s)]
  split
  · exact ⟨rfl, hwell, hstate⟩
  · exact comes_finishStop herror hwell

theorem comes_afterSource {s : Session σ κ} (hstate : s.engine.state = .stopping)
    (hwell : s.engine.consumer.isWell = true) :
    StopComes (perform (afterSource env) s).1 (perform (afterSource env) s).2 := by
  rw [afterSource, perform_bind_ok (perform_get s)]
  dsimp only
  split
  · exact comes_afterConsumer herror hstate hwell
  · split
    · exact ⟨rfl, hwell, hstate⟩
    · exact comes_afterConsumer herror hstate hwell

theorem comes_stopSource [Feed σ] (announces : Bool) {s : Session σ κ} (hstate : s.engine.state = .stopping)
    (hwell : s.engine.consumer.isWell = true) :
    StopComes (perform (stopSource env announces) s).1 (perform (stopSource env announces) s).2 := by
  have hlast : ∀ t, Stays s t → StopComes (perform (afterSource env) t).1 (perform (afterSource env) t).2 := by
    intro t ht
    exact comes_afterSource herror (ht.state.trans hstate) (by rw [ht.consumer]; exact hwell)
  refine comes_bind (Passes.attempt (stays_onSource _ _)) fun r t ht => ?_
  rcases r with f | _ | sent
  · exact comes_bind (Passes.report herror f) fun _ u hu => hlast u (trans_of Stays ht hu)
  · exact hlast t ht
  · exact comes_bind (Passes.hear herror sent) fun _ u hu => hlast u (trans_of Stays ht hu)

theorem comes_awaitConsumer {s : Session σ κ} (hstate : s.engine.state = .stopping)
    (hwell : s.engine.consumer.isWell = true) :
    StopComes (perform (awaitConsumer env) s).1 (perform (awaitConsumer env) s).2 := by
  rw [awaitConsumer, perform_bind_ok (perform_get s)]
  cases hc : s.engine.consumer with
  | broken | cancelled =>
    rw [hc] at hwell
    cases hwell
  | waiting | writing => exact ⟨rfl, hwell, hstate⟩
  | absent => exact comes_afterConsumer herror hstate hwell
  | _ => exact comes_afterConsumer herror (s := { s with engine.consumer := .absent }) hstate rfl

/-- **What comes of a stop that goes on.** -/
theorem comes_stopping [Feed σ] [Drain κ] {call : EngineCall} (hcall : isStopping call = true) {s : Session σ κ}
    (hstate : s.engine.state = .stopping) (hfits : fits s.engine.consumer call = true) :
    StopComes (perform (proceed env call) s).1 (perform (proceed env call) s).2 := by
  cases call with
  | stoppingSource announces => exact comes_stopSource herror announces hstate hfits
  | emptyingQueue => exact comes_awaitConsumer herror hstate hfits
  | closingSink =>
    refine comes_bind (Passes.closeSink herror) fun _ t ht => comes_finishStop herror ?_
    rw [ht.consumer]
    exact hfits
  | _ => cases hcall

/-- **What comes of a stop that begins.** -/
theorem comes_stop [Feed σ] {s : Session σ κ} (hruns : s.engine.state.leadsTo .stopping = true)
    (hwell : s.engine.consumer.isWell = true) :
    StopComes (perform (Engine.stop env) s).1 (perform (Engine.stop env) s).2 := by
  rw [Engine.stop, perform_bind_ok (perform_get s)]
  cases hs : s.engine.state <;> rw [hs] at hruns
  case running | initializing =>
    dsimp only
    rw [perform_bind_ok (perform_enter _ s), perform_bind_ok (perform_get _)]
    cases (entered .stopping s).engine.source with
    | none => exact comes_afterSource herror rfl hwell
    | some source => exact ⟨rfl, hwell, rfl⟩
  all_goals cases hruns

/-! ### The source and the consumer -/

/-- An item leaves the consumer well, whatever comes of it. -/
theorem isWell_handle (a : EngineAction σ κ (Option DueWrite)) (s : Session σ κ) :
    (perform (handle env a) s).2.engine.consumer.isWell = true := by
  rw [handle, attempt, perform_bind_ok (perform_lift _ s)]
  rcases perform a s with ⟨f | _ | due, t⟩
  · obtain ⟨_, u, hu⟩ := Returns.report herror f t
    dsimp only
    rw [attempt, perform_bind_ok (perform_lift _ t), hu]
    rfl
  · rfl
  · rfl

theorem isWell_take {s : Session σ κ} (hwell : s.engine.consumer.isWell = true) :
    (perform (take env) s).2.engine.consumer.isWell = true := by
  rw [take, perform_bind_ok (perform_get s)]
  split
  · rename_i item rest unfinished hqueue
    cases item with
    | event v => exact isWell_handle herror (beginEvent env v) { s with engine.queue := some ⟨rest, unfinished⟩ }
    | finished => exact isWell_handle herror (beginFlush env) { s with engine.queue := some ⟨rest, unfinished⟩ }
    | stop => rfl
  · exact hwell

/-- **The consumer works in the background**, and neither breaks down nor is it called off. -/
theorem background_consume [Drain κ] (s : Session σ κ) : Background s.engine (perform (consume env) s).2.engine := by
  have hstate := (still_consume env s).state
  have hof : ∀ step : EngineAction σ κ Unit, perform (consume env) s = perform step s →
      (perform step s).2.engine.consumer.isWell = true → Background s.engine (perform (consume env) s).2.engine := by
    intro step hstep hwell
    rw [← hstep] at hwell
    exact ⟨hstate, fun _ => Consumer.isIntact_of_isWell hwell, fun _ => hwell⟩
  cases hc : s.engine.consumer with
  | waiting =>
    refine hof (take env) ?_ (isWell_take herror (by rw [hc]; rfl))
    rw [consume, perform_bind_ok (perform_get s), hc]
  | writing v next =>
    refine hof (write env v next) ?_ (isWell_handle herror _ s)
    rw [consume, perform_bind_ok (perform_get s), hc]
  | _ =>
    rw [consume, perform_bind_ok (perform_get s), hc]
    exact Background.refl _

/-- **The source works in the background.** -/
theorem background_sourceStep (f : Source σ → Source σ) (sent : Option SourceSignal) (s : Session σ κ) :
    Background s.engine (perform (sourceStep env f sent) s).2.engine := by
  have hstays := (Passes.sourceStep herror f sent).stays s
  exact ⟨hstays.state, fun h => by rw [hstays.consumer]; exact h, fun h => by rw [hstays.consumer]; exact h⟩

end

end Engine

end EventPipeline
