import EventPipeline.Configuration.Settings
import EventPipeline.Connector.Descriptor
import EventPipeline.Pipeline.Stage

/-!
# Definitions

A definition says what a pipeline consists of: a source, a sink, stages in order, and the number of
values that its buffer may hold. It is built up call by call; each call is checked, and a call that
is refused changes nothing. A locked definition belongs to a running engine and refuses all
changes.
-/

namespace EventPipeline

/-- A pipeline as described by its builder. -/
structure Definition where
  /-- The source. -/
  source : Option Descriptor
  /-- The sink. -/
  sink : Option Descriptor
  /-- The stages, in order. -/
  stages : List Stage
  /-- How many values the buffer may hold. -/
  capacity : Nat
  /-- Changes are refused. -/
  locked : Bool

namespace Definition

/-- The definition without any part, at a capacity. -/
def empty (capacity : Nat) : Definition := ⟨none, none, [], capacity, false⟩

/-- A capacity has to be an integer from zero on. -/
def capacityOf (v : Value) : Except Failure Nat :=
  match v with
  | .number (.int (.ofNat n)) => .ok n
  | v => .error (.configuration "buffer capacity must be an integer >= 0" [("buffer_capacity", v)] none)

/-- The definition without any part, at a capacity that is still to be checked. -/
def withCapacity (capacity : Value) : Except Failure Definition :=
  (capacityOf capacity).map empty

/-- The definition without any part, at the capacity that settings name. -/
def ofSettings (settings : Option Settings) : Definition :=
  empty (settings.getD Settings.default).defaultBufferCapacity

/-! ### Changes -/

/-- A locked definition refuses changes. -/
def ensureMutable (d : Definition) : Except Failure Unit :=
  if d.locked then
    .error (.configuration "Pipeline definition cannot be modified after start()" []
      (some "Build a new pipeline instead"))
  else .ok ()

/-- Names the connector at one end. -/
def connect (d : Definition) (role : Role) (type : Value) (config : Fields) : Except Failure Definition := do
  d.ensureMutable
  let descriptor ← Descriptor.ofValues type config
  match role with
  | .source => return { d with source := some descriptor }
  | .sink => return { d with sink := some descriptor }

/-- Refuses to name a connector whose configuration fails to be read as fields. -/
def connectUnread (d : Definition) (f : Failure) : Except Failure Definition := do
  d.ensureMutable
  throw f

/-- Adds a stage at the end. -/
def addStage (d : Definition) (s : Stage) : Except Failure Definition := do
  d.ensureMutable
  return { d with stages := d.stages ++ [s] }

/-- Refuses to add a value that is no stage. -/
def addNoStage (d : Definition) (v : Value) : Except Failure Definition := do
  d.ensureMutable
  throw (.configuration "Unsupported stage type" [("stage_class", v.tag)] none)

/-- Adds an aggregate stage. Its window is given as a whole or by its fields, not by both. -/
def aggregate (d : Definition) (reduce : List Value → Except Failure Value) (source : Option Text)
    (window : Option Window) (count span : Value) : Except Failure Definition := do
  match window with
  | some w =>
    if count.isNull && span.isNull then d.addStage (.aggregate w reduce source)
    else throw (.configuration "Pass either window= or count/time_window_ms, not both" [] none)
  | none =>
    let w ← Window.ofValues count span
    d.addStage (.aggregate w reduce source)

/-- Sets the capacity. -/
def bufferSize (d : Definition) (capacity : Value) : Except Failure Definition := do
  d.ensureMutable
  let n ← capacityOf capacity
  return { d with capacity := n }

/-! ### Views -/

/-- A definition can be started only with a source and a sink. -/
def validate (d : Definition) : Except Failure Unit :=
  match d.source, d.sink with
  | none, _ => .error (.configuration "Pipeline has no source" [] (some "Call .source(type, config)"))
  | some _, none => .error (.configuration "Pipeline has no sink" [] (some "Call .sink(type, config)"))
  | some _, some _ => .ok ()

/-- The description of a definition. -/
def describe (d : Definition) : Value :=
  let descriptor : Option Descriptor → Value
    | some c => c.toValue
    | none => .null
  .object [("source", descriptor d.source), ("sink", descriptor d.sink),
    ("stages", .array (d.stages.map Stage.toValue)), ("buffer_capacity", .nat d.capacity)]

end Definition

end EventPipeline
