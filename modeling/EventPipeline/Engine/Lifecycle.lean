import EventPipeline.Engine.Processing

/-!
# The life of an engine

An engine is started once and stopped once. Starting makes the connectors and starts the source;
stopping stops the source, lets the consumer empty the queue, closes the sink and removes the spilled
values. Both may be held up where they wait for a connector or for the consumer, and others may act
meanwhile. So both are cut in pieces there: an `EngineCall` says where a call stands, and
`proceed` is the piece that follows.
-/

namespace EventPipeline

/-- Where a call to start or to stop an engine stands. -/
inductive EngineCall where
  /-- The source is being started. -/
  | startingSource
  /-- The start has failed, and the consumer, which was called off, is to leave. -/
  | leavingConsumer (f : Failure)
  /-- The start has failed, and the sink is being closed. -/
  | abandoningSink (f : Failure)
  /-- The source is being stopped; it may announce the end then. -/
  | stoppingSource (announces : Bool)
  /-- The consumer is emptying the queue. -/
  | emptyingQueue
  /-- The sink is being closed. -/
  | closingSink
  deriving DecidableEq

namespace Engine

variable {σ κ : Type} [Feed σ] [Drain κ] (env : Environment σ κ)

/-! ### Parts -/

/-- Makes the connectors of the definition. -/
def makeConnectors : EngineAction σ κ Unit := do
  let w := (← get).world
  match w.definition.source, w.definition.sink with
  | none, _ => throw (.configuration "No source configured" [] (some "Call .source(type, config) first"))
  | some _, none => throw (.configuration "No sink configured" [] (some "Call .sink(type, config) first"))
  | some source, some sink =>
    let working := w.host.files.working
    let feed ← liftExcept (env.registry.createSource working source)
    change fun e => { e with source := some (.ofFeed feed) }
    let drain ← liftExcept (env.registry.createSink working sink)
    change fun e => { e with sink := some drain }
    record RunLog.engineStage "info" "connectors resolved" [("source", source.type), ("sink", sink.type)]
where
  liftExcept {α : Type} (r : Except Failure α) : EngineAction σ κ α :=
    match r with
    | .ok a => return a
    | .error f => throw f

/-- Closes the sink. -/
def closeSink : EngineAction σ κ Unit := do
  match ← attempt (onSink Drain.close) with
  | .ok () => return ()
  | .error f => report env (sinkFailure "Sink close error" f)

/-- The source of the engine does something that may fail. -/
def onSource {α : Type} (step : Source σ → Except Failure α × Source σ) (otherwise : α) :
    EngineAction σ κ α := do
  match (← get).engine.source with
  | none => return otherwise
  | some source =>
    let (r, source) := step source
    change fun e => { e with source := some source }
    match r with
    | .ok a => return a
    | .error f => throw f

/-! ### Starting -/

/-- Gives up a start after a failure: nothing is left of it, and the failure is reported. -/
def giveUp (f : Failure) : EngineAction σ κ (Option EngineCall) := do
  change fun e => { e with consumer := .absent, queue := none, source := none, sink := none }
  report env f
  enter .idle
  throw f

/-- Gives up a start once the consumer has left. -/
def abandon (f : Failure) : EngineAction σ κ (Option EngineCall) := do
  if (← get).engine.sink.isSome then return some (.abandoningSink f) else giveUp env f

/-- Begins to start the engine, which does nothing unless it is idle. -/
def start : EngineAction σ κ (Option EngineCall) := do
  if (← get).engine.state ≠ .idle then return none
  enter .initializing
  match ← attempt (makeConnectors env) with
  | .error f => abandon env f
  | .ok () =>
    change fun e => { e with queue := some ⟨[], 0⟩, ended := some false, consumer := .waiting }
    return some .startingSource

/-- The failure of the source to start. -/
def startFailure (type : Text) (f : Failure) : Failure :=
  .structured (.connectorInit (some type) (some Role.source.name))
    ("Source failed to start: " ++ f.message) [("type", type)] none (some f.asCause)

/-- Starts the source. -/
def startSource : EngineAction σ κ (Option EngineCall) := do
  match ← attempt (onSource Source.start ()) with
  | .ok () =>
    enter .running
    signal env .started
    return none
  | .error f =>
    let s ← get
    let f := startFailure ((s.world.definition.source.map Descriptor.type).getD []) f
    match s.engine.consumer with
    | .absent => abandon env f
    | .waiting | .writing .. =>
      change fun e => { e with consumer := .cancelled }
      return some (.leavingConsumer f)
    | _ => return some (.leavingConsumer f)

/-- The consumer that was called off has left, unless it had broken down before. -/
def leaveConsumer (f : Failure) : EngineAction σ κ (Option EngineCall) := do
  match (← get).engine.consumer with
  | .broken g => throw g
  | _ => abandon env f

/-! ### Stopping -/

/-- Puts what is left of a spill into the log after its files were removed. -/
def logDiscarded (events files : Nat) : EngineAction σ κ Unit := do
  if files = 0 then return ()
  let message := "discarded " ++ Text.ofNat events ++ " spilled events (" ++ Text.ofNat files
    ++ " files) without replay"
  change fun e => { e with log := e.log.warn "spillover" message }
  record "spillover" "warning" message [("events", .nat events), ("files", .nat files)]

/-- Removes the spilled values. -/
def discardSpill : EngineAction σ κ Unit := do
  let spill := (← get).engine.spill
  let failures ← onSpill (ExceptT.lift Spill.discardAll)
  failures.forM (report env)
  logDiscarded spill.pendingEvents spill.pending.length

/-- The last piece of a stop. -/
def finishStop : EngineAction σ κ (Option EngineCall) := do
  discardSpill env
  enter .stopped
  signal env .stopped
  return none

/-- Goes on with a stop once the consumer has left. -/
def afterConsumer : EngineAction σ κ (Option EngineCall) := do
  if (← get).engine.sink.isSome then return some .closingSink else finishStop env

/-- Goes on with a stop once the source has stopped. -/
def afterSource : EngineAction σ κ (Option EngineCall) := do
  let e := (← get).engine
  match e.consumer with
  | .absent => afterConsumer env
  | _ =>
    if e.queue.isSome then
      put .stop
      return some .emptyingQueue
    else afterConsumer env

/-- Begins to stop the engine, which does nothing unless it is running or about to. -/
def stop : EngineAction σ κ (Option EngineCall) := do
  match (← get).engine.state with
  | .running | .initializing =>
    enter .stopping
    match (← get).engine.source with
    | none => afterSource env
    | some source =>
      let (announces, source) := source.beginStop
      change fun e => { e with source := some source }
      return some (.stoppingSource announces)
  | _ => return none

/-- Stops the source. -/
def stopSource (announces : Bool) : EngineAction σ κ (Option EngineCall) := do
  match ← attempt (onSource (Source.finishStop announces) none) with
  | .ok none => pure ()
  | .ok (some s) => hear env s
  | .error f => report env f
  afterSource env

/-- The failure of whoever waits for a consumer that was called off. -/
def calledOff : Failure := .plain .calledOff []

/-- The consumer has left, or broken down. -/
def awaitConsumer : EngineAction σ κ (Option EngineCall) := do
  match (← get).engine.consumer with
  | .broken g => throw g
  | .cancelled => throw calledOff
  | .over =>
    change fun e => { e with consumer := .absent }
    afterConsumer env
  | .absent => afterConsumer env
  | _ => return some .emptyingQueue

/-! ### Going on -/

/-- The next piece of a call. -/
def proceed : EngineCall → EngineAction σ κ (Option EngineCall)
  | .startingSource => startSource env
  | .leavingConsumer f => leaveConsumer env f
  | .abandoningSink f => do
    closeSink env
    giveUp env f
  | .stoppingSource announces => stopSource env announces
  | .emptyingQueue => awaitConsumer env
  | .closingSink => do
    closeSink env
    finishStop env

/-! ### The loop of the source -/

/-- Makes the next move of the source's loop and tells the subscribers what it sends. A subscriber
that fails on an error ends the loop, and its failure is sent in turn. -/
def moveSource : EngineAction σ κ LoopState := do
  let s ← get
  match s.engine.source with
  | none => return .over
  | some source =>
    let (sent, state, source) := source.move s.world.host.files
    change fun e => { e with source := some source }
    match sent with
    | none => return state
    | some sent =>
      match ← attempt (hear env sent) with
      | .ok () => return state
      | .error f =>
        if state = .ready then
          change fun e => { e with source := e.source.map Source.abandon }
          let _ ← attempt (hear env (.error f))
        return .over

/-! ### Waiting -/

/-- The end of the stream has been handled; an engine that was never started cannot tell. -/
def hasEnded (e : Engine σ κ) : Except Failure Bool :=
  match e.ended with
  | some b => .ok b
  | none => .error (.configuration "Engine has not been started" [] none)

/-- All that has come so far has been handled. -/
def isDrained (e : Engine σ κ) : Bool := e.queue.all fun q => q.unfinished = 0

/-! ### A source that sends of its own accord -/

/-- The source sends an event of its own accord. -/
def sendData (v : Value) : EngineAction σ κ Unit := do
  match (← get).engine.source.bind (·.sendData v) with
  | none => return ()
  | some s => hear env s

/-- The source announces the end of its own accord. -/
def sendEnd : EngineAction σ κ Unit := do
  match ← onSource (fun s => let (sent, s) := s.sendEnd; (.ok sent, s)) none with
  | none => return ()
  | some s => hear env s

end Engine

end EventPipeline
