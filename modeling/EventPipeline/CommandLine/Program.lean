import EventPipeline.CommandLine.Run
import EventPipeline.CommandLine.Usage
import EventPipeline.Configuration.Load
import EventPipeline.Connector.Builtin
import EventPipeline.Document.Basic

/-!
# The program

What the program does about its command line. A command ends with an exit code; running a pipeline
ends only after an interruption, so the program may also stand waiting for one.
-/

namespace EventPipeline

namespace CommandLine

/-- How the program ends. -/
inductive Ending where
  /-- A command comes to its end with a code. -/
  | done (code : Nat)
  /-- The program leaves early, with a code, over the words of its command line. -/
  | left (code : Nat)
  /-- It breaks down. -/
  | broken (f : Failure)
  deriving DecidableEq

/-- Where the program stands. -/
inductive Standing where
  /-- It has ended. -/
  | ended (e : Ending) (host : Host)
  /-- It runs a pipeline and waits for an interruption. -/
  | waiting (s : Schedule BuiltinSource BuiltinSink)

/-- The document to start from. -/
def template : Text := lines
  ["# StreamSynth Pipeline",
   "source file(\"./input.json\")",
   "filter(event.statusCode >= 400)",
   "transform(\x7b code: event.statusCode, url: event.url, timestamp: event.timestamp \x7d)",
   "sink file(\"./output.json\")",
   "bufferSize 1000"]

/-- The host after a line was printed. -/
def say (host : Host) (t : Text) : Host := { host with out := host.out ++ line t }

/-- The host after a line was printed for errors. -/
def complain (host : Host) (t : Text) : Host := { host with err := host.err ++ line t }

/-- The failure is one that a command expects and tells about: one of the pipeline, its settings or
the file system. -/
def isExpected : Failure → Bool
  | .plain (.file _) _ => true
  | .plain .. => false
  | _ => true

/-- A command ends early because of a failure that it tells about, or breaks down. -/
def stopAt (host : Host) (words : Text) (f : Failure) : Standing :=
  if isExpected f then .ended (.done 1) (complain host (words ++ ": " ++ f.message))
  else .ended (.broken f) host

/-- Writes a document to start from. -/
def create (host : Host) (file : Text) : Standing :=
  let (r, files) := (FileTree.write (Path.ofText file) template).run.run host.files
  let host := { host with files := files }
  match r with
  | .ok () => .ended (.done 0) (say host ("Template created at " ++ file))
  | .error f => stopAt host "Failed to create template" f

/-- What running a pipeline comes to. -/
def standingOf : Option (Except Failure Unit) × Schedule BuiltinSource BuiltinSink → Standing
  | (none, s) => .waiting s
  | (some (.ok ()), s) => .ended (.done 0) s.pipeline.world.host
  | (some (.error f), s) =>
    .ended (.done 1) (complain s.pipeline.world.host ("Failed to run pipeline: " ++ f.message))

/-- The environment of a pipeline that is run by the program. -/
def environment : Environment BuiltinSource BuiltinSink := ⟨.builtin, printer⟩

/-- The configuration, the settings and the definition that a run is asked for. -/
def prepare (now : Int) (files : FileTree) (file : Text) (config localConfig : Option Text) :
    Except Failure (Fields × Settings × Definition) := do
  let config ← match config with
    | none => pure []
    | some path =>
      let v ← Configuration.load files (Path.ofText path) (localConfig.map Path.ofText)
      pure (v.asFields?.getD [])
  let settings ← Settings.resolve (.object config)
  let definition ← Document.compileFile now (some settings) (Path.ofText file) files
  return (config, settings, definition)

/-- A path was given, and not an empty one. -/
def given? (path : Option Text) : Option Text := path.filter (· ≠ [])

/-- Runs the pipeline of a document until it is interrupted. -/
def run (now : Int) (interrupts : Notice → Bool) (fuel : Nat) (host : Host) (file : Text)
    (config localConfig : Option Text) : Standing :=
  if (given? config).isNone && (given? localConfig).isSome then
    .ended (.done 1) (complain host "Error: --local-config requires --config")
  else
    match prepare now host.files file (given? config) localConfig with
    | .error f => stopAt host "Failed to load pipeline" f
    | .ok (config, settings, definition) =>
      let p := Pipeline.ofDefinition definition host ⟨[]⟩
      standingOf (runPipeline environment interrupts fuel ⟨config, some settings⟩ (fun rung _ => .ok rung) p)

/-- Does what the words of a command line ask for, at a reading of the clock. -/
def execute (now : Int) (interrupts : Notice → Bool) (fuel : Nat) (host : Host) (words : List Text) : Standing :=
  if isAimless words then .ended (.done 0) { host with out := host.out ++ help none }
  else
    match read words with
    | .error (.help verb) => .ended (.left 0) { host with out := host.out ++ help verb }
    | .error (.misuse verb m) => .ended (.left 2) { host with err := host.err ++ complaint verb m }
    | .ok (.create file) => create host file
    | .ok (.run file config localConfig) => run now interrupts fuel host file config localConfig

/-! ### Files -/

/-- The paths that the words of a command line name. -/
def namedPaths (words : List Text) : List Path :=
  match read words with
  | .ok (.run file config localConfig) => (file :: (config.toList ++ localConfig.toList)).map Path.ofText
  | .ok (.create file) => [Path.ofText file]
  | .error _ => []

/-- The path in the configuration of a connector. -/
def connectorPath? (d : Descriptor) : Option Path :=
  ((d.config.find? "path").bind Value.asText?).map Path.ofText

/-- The paths that the connectors of a pipeline use, if the command line names one that can be read. -/
def connectorPaths (now : Int) (files : FileTree) (words : List Text) : List Path :=
  match read words with
  | .ok (.run file config localConfig) =>
    match prepare now files file (given? config) localConfig with
    | .ok (_, _, d) => (d.source.toList ++ d.sink.toList).filterMap connectorPath?
    | .error _ => []
  | _ => []

/-! ### Interruptions -/

/-- Goes on after an interruption. -/
def resume (fuel : Nat) : Standing → Standing
  | .waiting s => standingOf (interrupt environment (fun _ => false) fuel s)
  | s => s

end CommandLine

end EventPipeline
