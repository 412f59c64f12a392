import EventPipeline.Engine.Lifecycle

/-!
# The life of a pipeline

A pipeline is a definition together with the engines that have been made for it. Starting a pipeline
checks and locks its definition and starts a new engine; if that fails the definition is unlocked
again. Only a start that came to its end leaves its engine behind as the current one, which a later
stop then stops.
-/

namespace EventPipeline

/-- A pipeline. -/
structure Pipeline (σ κ : Type) where
  /-- All engines that have been made for it, oldest first. -/
  engines : List (Engine σ κ)
  /-- The engine that a start has left behind. -/
  current : Option Nat
  /-- What the engines act on; the definition is a part of it. -/
  world : World

/-- A step of a pipeline that may fail. -/
abbrev PipelineAction (σ κ α : Type) := ExceptT Failure (StateM (Pipeline σ κ)) α

/-- Where a call to a pipeline, or to one of its engines, stands. -/
inductive PipelineCall where
  /-- The pipeline is being started with an engine. -/
  | starting (engine : Nat) (call : EngineCall)
  /-- The pipeline is being stopped with an engine. -/
  | stopping (engine : Nat) (call : EngineCall)
  /-- An engine is being started or stopped by itself. -/
  | alone (engine : Nat) (call : EngineCall)
  deriving DecidableEq

/-- What a new engine is made with. -/
structure EngineOptions where
  /-- The configuration. -/
  config : Fields
  /-- Settings that take the place of those in the configuration. -/
  settings : Option Settings
  deriving DecidableEq

namespace Pipeline

variable {σ κ α : Type}

/-- The pipeline of a definition, without an engine. -/
def ofDefinition (definition : Definition) (host : Host) (clock : Clock) : Pipeline σ κ :=
  ⟨[], none, ⟨definition, host, clock, 1, []⟩⟩

/-- The current engine. -/
def currentEngine? (p : Pipeline σ κ) : Option (Engine σ κ) := p.current.bind (p.engines[·]?)

/-- The current engine is running. -/
def isRunning (p : Pipeline σ κ) : Bool :=
  match p.currentEngine? with
  | some e => e.state = .running
  | none => false

/-! ### Small steps -/

/-- Runs a step of an engine. -/
def onEngine (i : Nat) (otherwise : α) (action : EngineAction σ κ α) : PipelineAction σ κ α := do
  let p ← get
  match p.engines[i]? with
  | none => return otherwise
  | some e =>
    let (r, s) := action.run.run ⟨e, p.world⟩
    set { p with engines := p.engines.set i s.engine, world := s.world }
    match r with
    | .ok a => return a
    | .error f => throw f

/-- Changes the definition, unless the change is refused. -/
def define (change : Definition → Except Failure Definition) : PipelineAction σ κ Unit := do
  let p ← get
  match change p.world.definition with
  | .ok d => set { p with world.definition := d }
  | .error f => throw f

/-- Locks or unlocks the definition. -/
def lock (locked : Bool) : PipelineAction σ κ Unit :=
  modify fun p => { p with world.definition.locked := locked }

/-- Runs a step and gives its failure instead of failing. -/
def attempt (action : PipelineAction σ κ α) : PipelineAction σ κ (Except Failure α) :=
  ExceptT.lift action.run

variable (env : Environment σ κ)

/-- Announces something. -/
def announce (a : Announcement) : PipelineAction σ κ Unit := do
  let p ← get
  let n : Notice := .pipeline a
  let r := env.subscriber p.world.notices n
  let host := p.world.host
  set { p with
    world.notices := p.world.notices ++ [n]
    world.host := { host with out := host.out ++ r.out, err := host.err ++ r.err } }
  match r.failure with
  | none => return ()
  | some f => throw f

/-- Makes an engine for the pipeline and gives its number. -/
def addEngine (options : EngineOptions) : PipelineAction σ κ Nat := do
  let p ← get
  match Engine.create p.world.definition.stages p.world.host.files.working options.config options.settings with
  | .error f => throw f
  | .ok e =>
    set { p with engines := p.engines ++ [e] }
    return p.engines.length

variable [Feed σ] [Drain κ]

/-! ### Starting -/

/-- Goes on with a start after a piece of the engine's own start. -/
def afterStart (i : Nat) (r : Except Failure (Option EngineCall)) : PipelineAction σ κ (Option PipelineCall) :=
  match r with
  | .error f => do
    lock false
    throw f
  | .ok (some call) => return some (.starting i call)
  | .ok none => do
    modify fun p => { p with current := some i }
    announce env .started
    return none

/-- Begins to start the pipeline, which does nothing once it has an engine. -/
def start (options : EngineOptions) : PipelineAction σ κ (Option PipelineCall) := do
  let p ← get
  if p.current.isSome then return none
  match p.world.definition.validate with
  | .error f => throw f
  | .ok () =>
    lock true
    announce env .starting
    match ← attempt (addEngine options) with
    | .error f =>
      lock false
      throw f
    | .ok i =>
      let r ← attempt (onEngine i none (Engine.start env))
      afterStart env i r

/-! ### Stopping -/

/-- Goes on with a stop after a piece of the engine's own stop. -/
def afterStop (i : Nat) : Option EngineCall → PipelineAction σ κ (Option PipelineCall)
  | some call => return some (.stopping i call)
  | none => do
    announce env .stopped
    return none

/-- Begins to stop the pipeline, which does nothing without an engine or after a stop. -/
def stop : PipelineAction σ κ (Option PipelineCall) := do
  let p ← get
  match p.current, p.currentEngine? with
  | some i, some e =>
    if e.state = .stopped then return none
    announce env .stopping
    let call ← onEngine i none (Engine.stop env)
    afterStop env i call
  | _, _ => return none

/-! ### Going on -/

/-- The next piece of a call. -/
def proceed : PipelineCall → PipelineAction σ κ (Option PipelineCall)
  | .starting i call => do
    let r ← attempt (onEngine i none (Engine.proceed env call))
    afterStart env i r
  | .stopping i call => do
    let next ← onEngine i none (Engine.proceed env call)
    afterStop env i next
  | .alone i call => do
    let next ← onEngine i none (Engine.proceed env call)
    return next.map (.alone i)

/-- Begins to start an engine by itself. -/
def startAlone (i : Nat) : PipelineAction σ κ (Option PipelineCall) := do
  let call ← onEngine i none (Engine.start env)
  return call.map (.alone i)

/-- Begins to stop an engine by itself. -/
def stopAlone (i : Nat) : PipelineAction σ κ (Option PipelineCall) := do
  let call ← onEngine i none (Engine.stop env)
  return call.map (.alone i)

end Pipeline

end EventPipeline
