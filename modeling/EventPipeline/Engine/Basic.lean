import EventPipeline.Connector.Registry
import EventPipeline.Connector.Sink
import EventPipeline.Connector.Source
import EventPipeline.Engine.Notice
import EventPipeline.Engine.RunLog
import EventPipeline.Pipeline.Accumulation
import EventPipeline.Pipeline.Definition
import EventPipeline.Pipeline.Spill

/-!
# Engines

An engine runs one pipeline: a source, a chain of stages, a sink, and the buffer that the aggregate
stages share. What the source sends waits in a queue; a consumer takes it from there, one item after
the other. This module holds the state of an engine and of what it acts on, and how it reports:
every failure is counted, logged and told to the subscribers, in this order.
-/

namespace EventPipeline

/-- Where an engine is in its life. -/
inductive EngineState where
  | idle | initializing | running | stopping | stopped
  deriving DecidableEq

/-- The name of a state. -/
def EngineState.name : EngineState → Text
  | idle => "idle"
  | initializing => "initializing"
  | running => "running"
  | stopping => "stopping"
  | stopped => "stopped"

/-- What waits in the queue. -/
inductive QueueItem where
  /-- An event. -/
  | event (v : Value)
  /-- The end of the stream. -/
  | finished
  /-- The consumer is to leave. -/
  | stop
  deriving DecidableEq

/-- The queue between the source and the consumer. -/
structure Queue where
  /-- What waits, oldest first. -/
  items : List QueueItem
  /-- How many items have come and have not been handled to the end. -/
  unfinished : Nat
  deriving DecidableEq

/-- The queue with one more item. -/
def Queue.put (q : Queue) (item : QueueItem) : Queue := ⟨q.items ++ [item], q.unfinished + 1⟩

/-- What is left to do about an item after a write to the sink. -/
inductive Handling where
  /-- The item was an event. -/
  | event
  /-- The item was the end of the stream, and these aggregate stages are still to be flushed. -/
  | flush (rest : List (Nat × Stage))

/-- Where the consumer stands. -/
inductive Consumer where
  /-- There is none. -/
  | absent
  /-- At the queue. -/
  | waiting
  /-- At a write of a value to the sink. -/
  | writing (v : Value) (next : Handling)
  /-- It has left. -/
  | over
  /-- It broke down. -/
  | broken (f : Failure)
  /-- It was called off. -/
  | cancelled

/-- An engine. -/
structure Engine (σ κ : Type) where
  /-- The stages. -/
  stages : List Stage
  /-- The settings. -/
  settings : Settings
  /-- The log of the run. -/
  log : RunLog
  /-- Where the engine is in its life. -/
  state : EngineState
  /-- The source, once it has been made. -/
  source : Option (Source σ)
  /-- The sink, once it has been made. -/
  sink : Option κ
  /-- The latest failure. -/
  lastError : Option Failure
  /-- The queue, while there is one. -/
  queue : Option Queue
  /-- The consumer. -/
  consumer : Consumer
  /-- The end of the stream has been handled; nothing before the first start. -/
  ended : Option Bool
  /-- The values that the aggregate stages hold. -/
  buffer : Buffer
  /-- The values that the buffer could not hold. -/
  spill : Spill

/-- What engines act on besides themselves. -/
structure World where
  /-- The definition of the pipeline. -/
  definition : Definition
  /-- Files and printed texts. -/
  host : Host
  /-- The clock of the aggregate stages. -/
  clock : Clock
  /-- The number of the next file name. -/
  nextName : Nat
  /-- What the subscribers have been told, oldest first. -/
  notices : List Notice

/-- An engine and what it acts on. -/
structure Session (σ κ : Type) where
  /-- The engine. -/
  engine : Engine σ κ
  /-- What it acts on. -/
  world : World

/-- What does not change while engines run. -/
structure Environment (σ κ : Type) where
  /-- The types of connectors. -/
  registry : Registry σ κ
  /-- Who listens. -/
  subscriber : Subscriber

/-- A step of an engine that may fail. -/
abbrev EngineAction (σ κ α : Type) := ExceptT Failure (StateM (Session σ κ)) α

namespace Engine

variable {σ κ α : Type}

/-- A new engine for stages, with a configuration and perhaps settings of its own. -/
def create (stages : List Stage) (working : Text) (config : Fields) (settings : Option Settings) :
    Except Failure (Engine σ κ) := do
  let settings ← match settings with
    | some s => pure s
    | none => Settings.resolve (.object config)
  let log ← RunLog.start config
  return {
    stages := stages
    settings := settings
    log := log
    state := .idle
    source := none
    sink := none
    lastError := none
    queue := none
    consumer := .absent
    ended := none
    buffer := []
    spill := Spill.none ((Path.ofText settings.spilloverDir).absoluteIn working) }

/-! ### Small steps -/

/-- Changes the engine. -/
def change (f : Engine σ κ → Engine σ κ) : EngineAction σ κ Unit :=
  modify fun s => { s with engine := f s.engine }

/-- Runs a step and gives its failure instead of failing. -/
def attempt (action : EngineAction σ κ α) : EngineAction σ κ (Except Failure α) :=
  ExceptT.lift action.run

/-- Runs a step on the held values and the clock. -/
def onAccumulator (action : StateM Accumulator α) : EngineAction σ κ α := do
  let s ← get
  let (a, acc) := action.run ⟨s.engine.buffer, s.world.clock⟩
  set { s with engine.buffer := acc.buffer, world.clock := acc.clock }
  return a

/-- Runs a step on the buffer and its spilled values. -/
def onSpill (action : Spilling α) : EngineAction σ κ α := do
  let s ← get
  let (r, t) := action.run.run ⟨s.engine.buffer, s.engine.spill, s.world.host.files, s.world.nextName⟩
  set { s with
    engine.buffer := t.buffer, engine.spill := t.spill
    world.host.files := t.files, world.nextName := t.nextName }
  match r with
  | .ok a => return a
  | .error f => throw f

/-- The failure of whoever expects a sink where there is none. -/
def noSink : Failure := .plain .lacking "'NoneType' object has no attribute 'write'"

/-- Runs a step on the sink. -/
def onSink (action : SinkAction κ α) : EngineAction σ κ α := do
  let s ← get
  match s.engine.sink with
  | none => throw noSink
  | some k =>
    let (r, (k, host)) := action.run.run (k, s.world.host)
    set { s with engine.sink := some k, world.host := host }
    match r with
    | .ok a => return a
    | .error f => throw f

/-! ### Log and notices -/

/-- Adds an entry to the log. -/
def record (stage level message : Text) (extra : Fields) : EngineAction σ κ Unit :=
  change fun e => { e with log := e.log.log ⟨stage, level, message, extra⟩ }

/-- Raises a counter. -/
def count (c : RunLog.Counter) (amount : Nat) : EngineAction σ κ Unit :=
  change fun e => { e with log := e.log.count c amount }

/-- The part of the engine that a failure is about. -/
def stageOf : Failure → Text
  | .structured (.processor (some i) kind) .. =>
    "stage." ++ Text.ofInt i ++ "." ++ kind.getD "None"
  | .structured .sink .. => "sink"
  | .structured (.source _) .. => "source"
  | .structured (.spillover _) .. => "spillover"
  | _ => RunLog.engineStage

/-- Enters a state. -/
def enter (state : EngineState) : EngineAction σ κ Unit := do
  let previous := (← get).engine.state
  change fun e => { e with state := state }
  record RunLog.engineStage "info" "state changed" [("previous", previous.name), ("state", state.name)]

variable (env : Environment σ κ)

/-- Tells the subscribers something. -/
def tell (n : Notice) : EngineAction σ κ Unit := do
  let s ← get
  let r := env.subscriber s.world.notices n
  let host := s.world.host
  set { s with
    world.notices := s.world.notices ++ [n]
    world.host := { host with out := host.out ++ r.out, err := host.err ++ r.err } }
  match r.failure with
  | none => return ()
  | some f => throw f

/-- Sends a signal. -/
def signal (s : EngineSignal) : EngineAction σ κ Unit := tell env (.engine s)

/-- Reports a failure. -/
def report (f : Failure) : EngineAction σ κ Unit := do
  change fun e => { e with lastError := some f }
  count .errors 1
  record (stageOf f) "error" (if f.message.isEmpty then f.name else f.message) [("error", f.report.toValue)]
  signal env (.error f)

end Engine

end EventPipeline
