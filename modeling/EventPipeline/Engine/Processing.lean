import EventPipeline.Engine.Basic
import EventPipeline.Pipeline.Chain

/-!
# Processing

What an engine does with the items of its queue, one after the other.

An event runs through the chain; the failures of stages are reported; what the chain delivers goes to
the sink; then the buffer is cut back to its capacity. The end of the stream flushes every aggregate
stage in turn. The consumer may be held up at each write to the sink, so that handling an item is
cut in pieces there: `beginEvent` and `flush` lead up to the next write, `deliver` makes it, and
`resume` goes on after it. A failure that is left over is reported, and the consumer goes on with the
next item; if the report itself fails, the consumer breaks down.
-/

namespace EventPipeline

namespace Engine

variable {σ κ : Type} [Drain κ] (env : Environment σ κ)

/-- A write that is due, and what is left to do after it. -/
abbrev DueWrite := Value × Handling

/-! ### Events -/

/-- The failure of the sink to take a value. -/
def sinkFailure (words : Text) (f : Failure) : Failure :=
  .structured .sink (words ++ ": " ++ f.message) [("exception_class", f.name)] none (some f.asCause)

/-- Writes a value to the sink. -/
def deliver (v : Value) : EngineAction σ κ Unit := do
  match ← attempt (onSink (Drain.write v)) with
  | .error f => report env (sinkFailure "Sink error" f)
  | .ok () =>
    count .processed 1
    signal env (.processed v)

/-- Cuts the buffer back to its capacity. -/
def checkSpill : EngineAction σ κ Unit := do
  let capacity := (← get).world.definition.capacity
  match ← attempt (onSpill (Spill.spillIfNeeded capacity)) with
  | .error f => report env f
  | .ok none => return ()
  | .ok (some r) =>
    count .spilledEvents r.count
    count .spillFiles 1
    record "spillover" "info" "buffer overflow spilled to disk"
      [("path", r.path.text), ("count", .nat r.count), ("sequence_id", .nat r.sequence)]
    signal env (.spillover r.path r.count)

/-- Handles an event up to the write of what the chain delivers, or to the end. -/
def beginEvent (event : Value) : EngineAction σ κ (Option DueWrite) := do
  let e := (← get).engine
  let outcome ← onAccumulator (Chain.run e.settings.timestampField e.stages event)
  outcome.errors.forM (report env)
  match outcome.delivered? with
  | some v => return some (v, .event)
  | none =>
    if outcome.filtered then
      count .filtered 1
      signal env (.filtered event)
    checkSpill env
    return none

/-- Handles an event to the end. -/
def process (event : Value) : EngineAction σ κ Unit := do
  match ← beginEvent env event with
  | none => return ()
  | some (v, _) =>
    deliver env v
    checkSpill env

/-! ### The end of the stream -/

/-- The end of the stream has been handled. -/
def finishStream : EngineAction σ κ Unit := do
  change fun e => { e with ended := some true }
  signal env .finished

/-- Flushes a stage that holds values back, and gives the result if there is one. A null is no
result. -/
def flushStage : Nat × Stage → EngineAction σ κ (Option Value)
  | (index, stage) => do
    let remaining := (← get).engine.buffer.length
    match stage with
    | .aggregate _ reduce _ =>
      if remaining = 0 then return none
      else
        match ← onAccumulator (Accumulator.flush reduce).run with
        | .error f =>
          report env (stage.failure index f)
          return none
        | .ok result =>
          record ("stage." ++ Text.ofNat index ++ "." ++ stage.kind.name) "info" "end-of-stream flush"
            [("events", .nat remaining)]
          match result with
          | some .null => return none
          | r => return r
    | _ => return none

/-- Flushes stages up to the next write of a result, or to the end. -/
def flush : List (Nat × Stage) → EngineAction σ κ (Option DueWrite)
  | [] => do
    finishStream env
    return none
  | s :: rest => do
    match ← flushStage env s with
    | some v => return some (v, .flush rest)
    | none => flush rest

/-- Handles the end of the stream up to the first write, or to the end. -/
def beginFlush : EngineAction σ κ (Option DueWrite) := do
  let stages := (← get).engine.stages
  flush env (Chain.aggregateStages stages)

/-- Goes on after a write. -/
def resume : Handling → EngineAction σ κ (Option DueWrite)
  | .event => do
    checkSpill env
    return none
  | .flush rest => flush env rest

/-! ### The consumer -/

/-- An item has been handled, and the consumer stands where it is told. -/
def finishItem (next : Consumer) : EngineAction σ κ Unit :=
  change fun e => { e with
    consumer := next
    queue := e.queue.map fun q => { q with unfinished := q.unfinished - 1 } }

/-- Handles an item, or what is left to do about it. -/
def handle (action : EngineAction σ κ (Option DueWrite)) : EngineAction σ κ Unit := do
  match ← attempt action with
  | .ok (some (v, next)) => change fun e => { e with consumer := .writing v next }
  | .ok none => finishItem .waiting
  | .error f =>
    match ← attempt (report env f) with
    | .ok () => finishItem .waiting
    | .error g => finishItem (.broken g)

/-- The consumer takes the next item, if there is one. -/
def take : EngineAction σ κ Unit := do
  match (← get).engine.queue with
  | some ⟨item :: rest, unfinished⟩ =>
    change fun e => { e with queue := some ⟨rest, unfinished⟩ }
    match item with
    | .event v => handle env (beginEvent env v)
    | .finished => handle env (beginFlush env)
    | .stop => finishItem .over
  | _ => return ()

/-- The consumer makes the write that is due and goes on after it. -/
def write (v : Value) (next : Handling) : EngineAction σ κ Unit :=
  handle env do
    deliver env v
    resume env next

/-- The consumer makes a step. -/
def consume : EngineAction σ κ Unit := do
  match (← get).engine.consumer with
  | .waiting => take env
  | .writing v next => write env v next
  | _ => return ()

/-- The consumer has something to do. -/
def isBusy (e : Engine σ κ) : Bool :=
  match e.consumer with
  | .waiting => e.queue.any fun q => !q.items.isEmpty
  | .writing .. => true
  | _ => false

/-! ### What the source sends -/

/-- Puts an item into the queue, if there is one. -/
def put (item : QueueItem) : EngineAction σ κ Unit :=
  change fun e => { e with queue := e.queue.map (·.put item) }

/-- Hears a signal of the source: events and the end wait in the queue, failures are reported at
once. Without a queue nothing waits. -/
def hear : SourceSignal → EngineAction σ κ Unit
  | .data v => do
    if (← get).engine.queue.isSome then
      count .received 1
      put (.event v)
  | .finished => put .finished
  | .error f => report env f

/-! ### Reloading -/

/-- Puts the oldest spilled values back into the buffer. Also tells whether that was done. -/
def reload : EngineAction σ κ Bool := do
  match ← attempt (onSpill Spill.reload) with
  | .error f =>
    report env f
    return false
  | .ok none => return false
  | .ok (some r) =>
    count .reloadedEvents r.count
    record "spillover" "info" "spillover reloaded into buffer"
      [("path", r.path.text), ("count", .nat r.count), ("sequence_id", .nat r.sequence)]
    return true

end Engine

end EventPipeline
