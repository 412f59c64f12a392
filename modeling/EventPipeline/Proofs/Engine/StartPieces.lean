import EventPipeline.Proofs.Engine.Telling
import EventPipeline.Proofs.Engine.Turns

/-!
# The pieces of a start that fails

A start of an engine may fail at five points: there is no source, there is no sink, the source or the sink cannot be
made (`Unmade`), or the source fails to start. This module says what each piece of such a start makes of the session.
Up to the fourth point nothing is left to be undone, and the start gives up at once (`perform_start_of_unmade`). At the
last one the consumer is there already, and it may have been held up at a write to the sink. So there are three pieces
more: the consumer is called off, it leaves, and the sink is closed.
-/

namespace EventPipeline

variable {σ κ : Type}

namespace Engine

/-- Nothing has been made for the engine, and it may be started. -/
structure Unstarted (e : Engine σ κ) : Prop where
  /-- The engine is idle. -/
  state : e.state = .idle
  /-- There is no source. -/
  source : e.source = none
  /-- There is no sink. -/
  sink : e.sink = none
  /-- There is no queue. -/
  queue : e.queue = none
  /-- There is no consumer. -/
  consumer : e.consumer = .absent

/-- Nothing has been made for a new engine. -/
theorem unstarted_create {stages : List Stage} {working : Text} {config : Fields} {settings : Option Settings}
    {e : Engine σ κ} (h : create stages working config settings = .ok e) : e.Unstarted := by
  obtain ⟨chosen, fingerprint, rfl⟩ := create_ok h
  exact ⟨rfl, rfl, rfl, rfl, rfl⟩

/-- The connectors of a definition cannot be made, for a reason. -/
inductive Unmade (env : Environment σ κ) (w : World) : Failure → Prop where
  /-- There is no source. -/
  | noSource (h : w.definition.source = none) :
      Unmade env w (.configuration "No source configured" [] (some "Call .source(type, config) first"))
  /-- There is a source, but no sink. -/
  | noSink {source : Descriptor} (hsource : w.definition.source = some source) (h : w.definition.sink = none) :
      Unmade env w (.configuration "No sink configured" [] (some "Call .sink(type, config) first"))
  /-- The source cannot be made. -/
  | source {source sink : Descriptor} {f : Failure} (hsource : w.definition.source = some source)
      (hsink : w.definition.sink = some sink) (h : env.registry.createSource w.host.files.working source = .error f) :
      Unmade env w f
  /-- The source can be made, but not the sink. -/
  | sink {source sink : Descriptor} {feed : σ} {f : Failure} (hsource : w.definition.source = some source)
      (hsink : w.definition.sink = some sink) (hfeed : env.registry.createSource w.host.files.working source = .ok feed)
      (h : env.registry.createSink w.host.files.working sink = .error f) : Unmade env w f

/-- The sink of a definition, if both connectors can be made. -/
structure Made (env : Environment σ κ) (w : World) (drain : κ) : Prop where
  /-- The source can be made. -/
  source : ∃ d feed, w.definition.source = some d ∧ env.registry.createSource w.host.files.working d = .ok feed
  /-- The sink can be made. -/
  sink : ∃ d, w.definition.sink = some d ∧ env.registry.createSink w.host.files.working d = .ok drain

/-- The type of the source that is named, if there is one. -/
def sourceType (w : World) : Text := (w.definition.source.map Descriptor.type).getD []

/-- The failures of starts. -/
def startFailures : List Text := ["ConfigurationError", "UnknownConnectorError", "ConnectorInitError"]

theorem name_create {α : Type} {role : Role} {working : Text} {d : Descriptor} {types : Table Text (Factory α)}
    {f : Failure} (h : Registry.create role working d types = .error f) : f.name ∈ startFailures := by
  unfold Registry.create at h
  cases hfind : types.find? d.type with
  | none =>
    rw [hfind] at h
    cases h
    simp [startFailures, Registry.unknownType, Failure.name, Concern.name]
  | some make =>
    rw [hfind] at h
    dsimp only at h
    cases hmake : make working d.config with
    | ok a =>
      rw [hmake] at h
      cases h
    | error g =>
      rw [hmake] at h
      cases h
      simp [startFailures, Registry.notMade, Failure.name, Concern.name]

theorem Unmade.name {env : Environment σ κ} {w : World} {f : Failure} (h : Unmade env w f) :
    f.name ∈ startFailures := by
  cases h with
  | noSource | noSink => simp [startFailures, Failure.configuration, Failure.name, Concern.name]
  | source hsource hsink h => exact name_create h
  | sink hsource hsink hfeed h => exact name_create h

theorem name_startFailure (type : Text) (f : Failure) : (startFailure type f).name ∈ startFailures := by
  simp [startFailures, startFailure, Failure.name, Concern.name]

/-- The connectors can be made, or there is a reason why not. -/
theorem unmade_or_made (env : Environment σ κ) (w : World) : (∃ f, Unmade env w f) ∨ ∃ drain, Made env w drain := by
  cases hsource : w.definition.source with
  | none => exact .inl ⟨_, .noSource hsource⟩
  | some source =>
    cases hsink : w.definition.sink with
    | none => exact .inl ⟨_, .noSink hsource hsink⟩
    | some sink =>
      cases hfeed : env.registry.createSource w.host.files.working source with
      | error f => exact .inl ⟨f, .source hsource hsink hfeed⟩
      | ok feed =>
        cases hdrain : env.registry.createSink w.host.files.working sink with
        | error f => exact .inl ⟨f, .sink hsource hsink hfeed hdrain⟩
        | ok drain => exact .inr ⟨drain, ⟨source, feed, hsource, hfeed⟩, sink, hsink, hdrain⟩

/-! ### Making the connectors -/

section

variable {env : Environment σ κ} {s : Session σ κ}

/-- Connectors that cannot be made are not made; a source may have been made in vain. -/
theorem perform_makeConnectors_of_unmade {f : Failure} (h : Unmade env s.world f) :
    ∃ source, perform (makeConnectors env) s = (.error f, { s with engine.source := source }) := by
  rw [makeConnectors, perform_bind_ok (perform_get s)]
  cases h with
  | noSource h =>
    simp only [h]
    exact ⟨s.engine.source, rfl⟩
  | noSink hsource h =>
    simp only [hsource, h]
    exact ⟨s.engine.source, rfl⟩
  | source hsource hsink h =>
    simp only [hsource, hsink, h]
    exact ⟨s.engine.source, rfl⟩
  | @sink _ _ feed _ hsource hsink hfeed h =>
    simp only [hsource, hsink, hfeed, h]
    exact ⟨some (.ofFeed feed), rfl⟩

/-- Connectors that can be made are made. -/
theorem perform_makeConnectors_of_made {drain : κ} (h : Made env s.world drain) :
    ∃ t, perform (makeConnectors env) s = (.ok (), t) ∧ t.engine.source.isSome ∧ t.engine.sink = some drain ∧
      t.world = s.world := by
  obtain ⟨⟨source, feed, hsource, hfeed⟩, sink, hsink, hdrain⟩ := h
  rw [makeConnectors, perform_bind_ok (perform_get s)]
  simp only [hsource, hsink, hfeed, hdrain]
  exact ⟨_, rfl, rfl, rfl, rfl⟩

end

/-! ### Giving up -/

section

variable {env : Environment σ κ} (hq : env.Quiet)

include hq

/-- Whoever gives up a start leaves nothing of it and reports the failure. -/
theorem perform_giveUp (f : Failure) (s : Session σ κ) :
    ∃ t, perform (giveUp env f) s = (.error f, t) ∧ t.engine.Unstarted ∧
      t.world.notices = s.world.notices ++ [.engine (.error f)] := by
  let dropped : Session σ κ :=
    { s with engine := { s.engine with consumer := .absent, queue := none, source := none, sink := none } }
  obtain ⟨t, ht⟩ := tells_report hq f dropped
  have haside : Aside dropped t := ht.leads (leads_report env f)
  refine ⟨entered .idle t, ?_, ⟨rfl, ?_, ?_, ?_, ?_⟩, ht.told⟩
  · have hdrop : perform (giveUp env f) s = perform (do report env f; enter .idle; throw f) dropped := rfl
    rw [hdrop, perform_bind_ok ht.result]
    rfl
  · exact ht.within.source
  · exact congrArg Core.sink haside.core_eq
  · exact ht.within.queue
  · exact ht.within.consumer

/-- What is told of the closing of a sink. -/
def closeNotices : Except Failure Unit → List Notice
  | .ok () => []
  | .error f => [.engine (.error (sinkFailure "Sink close error" f))]

/-- The sink is closed, whether it fails or not. -/
theorem perform_closeSink [Drain κ] {k : κ} {s : Session σ κ} (hk : s.engine.sink = some k) :
    ∃ t, perform (closeSink env) s = (.ok (), t) ∧
      t.engine.sink = some (perform Drain.close (k, s.world.host)).2.1 ∧
      t.world.notices = s.world.notices ++ closeNotices (perform Drain.close (k, s.world.host)).1 := by
  let closed : Session σ κ :=
    withSink s (perform Drain.close (k, s.world.host)).2.1 (perform Drain.close (k, s.world.host)).2.2
  have hclose : perform (attempt (onSink Drain.close)) s = (.ok (perform Drain.close (k, s.world.host)).1, closed) := by
    rw [attempt, perform_lift, perform_onSink, hk]
  rw [closeSink, perform_bind_ok hclose]
  cases (perform Drain.close (k, s.world.host)).1 with
  | ok _ => exact ⟨closed, rfl, rfl, (List.append_nil _).symm⟩
  | error f =>
    obtain ⟨t, ht⟩ := tells_report hq (sinkFailure "Sink close error" f) closed
    exact ⟨t, ht.result, congrArg Core.sink (ht.leads (leads_report env _)).core_eq, ht.told⟩

omit hq in
/-- A start begins with making the connectors. -/
theorem perform_start {s : Session σ κ} (hidle : s.engine.state = .idle) :
    perform (Engine.start env) s =
      match perform (makeConnectors env) (entered .initializing s) with
      | (.error f, t) => perform (abandon env f) t
      | (.ok _, t) =>
        (.ok (some .startingSource),
          { t with engine := { t.engine with queue := some ⟨[], 0⟩, ended := some false, consumer := .waiting } }) := by
  rw [Engine.start, perform_bind_ok (perform_get s), if_neg (fun hne => hne hidle), perform_bind_ok (perform_enter _ s),
    attempt, perform_bind_ok (perform_lift _ _)]
  rcases perform (makeConnectors env) (entered .initializing s) with ⟨_ | _, t⟩ <;> rfl

/-- A start whose connectors cannot be made fails at once. -/
theorem perform_start_of_unmade {f : Failure} (hs : s.engine.Unstarted) (h : Unmade env s.world f) :
    ∃ t, perform (Engine.start env) s = (.error f, t) ∧ t.engine.Unstarted ∧
      t.world.notices = s.world.notices ++ [.engine (.error f)] := by
  obtain ⟨source, hmake⟩ := perform_makeConnectors_of_unmade (s := entered .initializing s) h
  obtain ⟨t, ht, hunstarted, htold⟩ := perform_giveUp hq f { entered .initializing s with engine.source := source }
  refine ⟨t, ?_, hunstarted, htold⟩
  rw [perform_start hs.state, hmake]
  dsimp only
  rw [abandon, perform_bind_ok (perform_get _), if_neg, ht]
  rw [show (entered .initializing s).engine.sink = none from hs.sink]
  exact Bool.false_ne_true

omit hq in
/-- If the source fails to start, the consumer is called off. -/
theorem perform_startingSource_error [Feed σ] [Drain κ] {s : Session σ κ} {source : Source σ} {g : Failure}
    (hsource : s.engine.source = some source) (hact : isActive s.engine.consumer)
    (hg : (Source.start source).1 = .error g) :
    perform (proceed env .startingSource) s =
      (.ok (some (.leavingConsumer (startFailure (sourceType s.world) g))),
        { s with engine := { s.engine with source := some (Source.start source).2, consumer := .cancelled } }) := by
  rw [proceed, startSource, attempt, perform_bind_ok (perform_lift _ s), perform_onSource Source.start () hsource, hg]
  dsimp only
  rw [perform_bind_ok (perform_get _)]
  cases hc : s.engine.consumer with
  | waiting | writing => rfl
  | _ =>
    rw [hc] at hact
    cases hact

/-- If the source starts, so does the engine. -/
theorem perform_startingSource_ok [Feed σ] [Drain κ] {s : Session σ κ} {source : Source σ}
    (hsource : s.engine.source = some source) (hok : (Source.start source).1 = .ok ()) :
    (perform (proceed env .startingSource) s).1 = .ok none := by
  rw [proceed, startSource, attempt, perform_bind_ok (perform_lift _ s), perform_onSource Source.start () hsource, hok]
  dsimp only
  rw [perform_bind_ok (perform_enter _ _), signal, perform_bind_ok (gives_tell hq _ _).result]
  rfl

omit hq in
/-- A consumer that was called off leaves, and the sink is next. -/
theorem perform_leavingConsumer [Feed σ] [Drain κ] {s : Session σ κ} (f : Failure)
    (hconsumer : s.engine.consumer = .cancelled) (hsink : s.engine.sink.isSome) :
    perform (proceed env (.leavingConsumer f)) s = (.ok (some (.abandoningSink f)), s) := by
  rw [proceed, leaveConsumer, perform_bind_ok (perform_get s), hconsumer]
  dsimp only
  rw [abandon, perform_bind_ok (perform_get s), if_pos hsink]
  rfl

/-- The sink is closed, and the start given up. -/
theorem perform_abandoningSink [Feed σ] [Drain κ] {s : Session σ κ} {k : κ} (f : Failure)
    (hk : s.engine.sink = some k) :
    ∃ t, perform (proceed env (.abandoningSink f)) s = (.error f, t) ∧ t.engine.Unstarted ∧
      t.world.notices =
        s.world.notices ++ (closeNotices (perform Drain.close (k, s.world.host)).1 ++ [.engine (.error f)]) := by
  obtain ⟨t, ht, -, htold⟩ := perform_closeSink hq hk
  obtain ⟨u, hu, hunstarted, htold'⟩ := perform_giveUp hq f t
  refine ⟨u, ?_, hunstarted, ?_⟩
  · rw [proceed, perform_bind_ok ht, hu]
  · rw [htold', htold, List.append_assoc]

end

end Engine

end EventPipeline
