import EventPipeline.Configuration.Fingerprint
import EventPipeline.Failure.Report

/-!
# Run logs

What a run leaves behind for its operator: the effective configuration with its fingerprint, a log
of entries, warnings grouped by the part of the engine that gave them, and counters.
-/

namespace EventPipeline

/-- An entry of a log. -/
structure LogEntry where
  /-- The part of the engine that speaks. -/
  stage : Text
  /-- How serious it is. -/
  level : Text
  /-- What happened. -/
  message : Text
  /-- Data for diagnosis. -/
  extra : Fields
  deriving DecidableEq

/-- The log of a run. -/
structure RunLog where
  /-- The effective configuration. -/
  config : Fields
  /-- The fingerprint of the configuration. -/
  fingerprint : Text
  /-- The entries, oldest first. -/
  entries : List LogEntry
  /-- The warnings of each part, oldest first. -/
  warnings : Table Text (List Text)
  /-- The counters. -/
  metrics : Table Text Int
  deriving DecidableEq

namespace RunLog

/-- The part of the engine that is no stage. -/
def engineStage : Text := "engine"

/-- The counters of a run. -/
inductive Counter where
  | received | processed | filtered | errors | spilledEvents | spillFiles | reloadedEvents
  deriving DecidableEq

/-- The name of a counter. -/
def Counter.name : Counter → Text
  | received => "received"
  | processed => "processed"
  | filtered => "filtered"
  | errors => "errors"
  | spilledEvents => "spilled_events"
  | spillFiles => "spill_files"
  | reloadedEvents => "reloaded_events"

/-- The counters that every run has, at zero. -/
def zeroMetrics : Table Text Int :=
  [Counter.received, .processed, .filtered, .errors, .spilledEvents, .spillFiles, .reloadedEvents].map
    fun c => (c.name, 0)

/-- The log at the start of a run with a configuration. -/
def start (config : Fields) : Except Failure RunLog := do
  let fingerprint ← Configuration.fingerprint (.object config)
  return ⟨config, fingerprint, [], [], zeroMetrics⟩

/-- Adds an entry. -/
def log (r : RunLog) (e : LogEntry) : RunLog := { r with entries := r.entries ++ [e] }

/-- Adds a warning. -/
def warn (r : RunLog) (stage message : Text) : RunLog :=
  { r with warnings := r.warnings.set stage ((r.warnings.find? stage).getD [] ++ [message]) }

/-- Raises a counter by an amount; a counter that is not there yet starts at zero. -/
def addTo (r : RunLog) (key : Text) (amount : Int) : RunLog :=
  { r with metrics := r.metrics.set key ((r.metrics.find? key).getD 0 + amount) }

/-- Raises a counter of the engine by an amount. -/
def count (r : RunLog) (c : Counter) (amount : Nat) : RunLog := r.addTo c.name amount

/-- The value of a counter of the engine. -/
def counter (r : RunLog) (c : Counter) : Int := (r.metrics.find? c.name).getD 0

/-- The entries of a level, or all of them. -/
def entriesOf (r : RunLog) (level : Option Text) : List LogEntry :=
  match level with
  | none => r.entries
  | some l => r.entries.filter (·.level = l)

end RunLog

/-- An entry as a value; data for diagnosis may overrule what stands before it. -/
def LogEntry.toValue (e : LogEntry) : Value :=
  let own : Fields := [("stage_id", e.stage), ("level", e.level), ("message", e.message)]
  .object (own.setAll e.extra)

end EventPipeline
