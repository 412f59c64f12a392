import EventPipeline.Connector.Console
import EventPipeline.Connector.File
import EventPipeline.Connector.Http
import EventPipeline.Connector.Kafka
import EventPipeline.Connector.Registry

/-!
# Built-in connectors

The sources and sinks that every pipeline can name, and the registry of them.
-/

namespace EventPipeline

/-- A source of a built-in type. -/
inductive BuiltinSource where
  | memory (s : MemorySource)
  | file (s : FileSource)
  | http (s : HttpSource)
  | kafka (s : KafkaSource)

/-- A sink of a built-in type. -/
inductive BuiltinSink where
  | memory (s : MemorySink)
  | file (s : FileSink)
  | console (s : ConsoleSink)
  | kafka (s : KafkaSink)

namespace BuiltinSource

/-- Opens a source. -/
def connect : BuiltinSource → Except Failure Unit × BuiltinSource
  | memory s => (Feed.connect s).map id memory
  | file s => (Feed.connect s).map id file
  | http s => (Feed.connect s).map id http
  | kafka s => (Feed.connect s).map id kafka

/-- The next move of a loop. -/
def advance (files : FileTree) (running : Bool) (p : Progress) : BuiltinSource → Advance BuiltinSource
  | memory s => (Feed.advance files running p s).map memory
  | file s => (Feed.advance files running p s).map file
  | http s => (Feed.advance files running p s).map http
  | kafka s => (Feed.advance files running p s).map kafka

/-- Closes a source. -/
def disconnect : BuiltinSource → Except Failure Unit × BuiltinSource
  | memory s => (Feed.disconnect s).map id memory
  | file s => (Feed.disconnect s).map id file
  | http s => (Feed.disconnect s).map id http
  | kafka s => (Feed.disconnect s).map id kafka

/-- Stopping a source announces the end. -/
def endsOnStop (running : Bool) : BuiltinSource → Bool
  | memory s => Feed.endsOnStop running s
  | file s => Feed.endsOnStop running s
  | http s => Feed.endsOnStop running s
  | kafka s => Feed.endsOnStop running s

/-- What the client of a source was asked for, in order. -/
def calls : BuiltinSource → List ClientCall
  | http s => s.calls
  | kafka s => s.calls
  | memory _ | file _ => []

instance : Feed BuiltinSource where
  connect := connect
  advance := advance
  disconnect := disconnect
  endsOnStop := endsOnStop

end BuiltinSource

namespace BuiltinSink

/-- Writes a value to a sink. -/
def write (v : Value) : SinkAction BuiltinSink Unit := do
  match ← get with
  | (memory s, _) => SinkAction.onPart s memory (Drain.write v)
  | (file s, _) => SinkAction.onPart s file (Drain.write v)
  | (console s, _) => SinkAction.onPart s console (Drain.write v)
  | (kafka s, _) => SinkAction.onPart s kafka (Drain.write v)

/-- Closes a sink. -/
def close : SinkAction BuiltinSink Unit := do
  match ← get with
  | (memory s, _) => SinkAction.onPart s memory Drain.close
  | (file s, _) => SinkAction.onPart s file Drain.close
  | (console s, _) => SinkAction.onPart s console Drain.close
  | (kafka s, _) => SinkAction.onPart s kafka Drain.close

/-- What the client of a sink was asked for, in order. -/
def calls : BuiltinSink → List ClientCall
  | kafka s => s.calls
  | memory _ | file _ | console _ => []

instance : Drain BuiltinSink where
  write := write
  close := close

end BuiltinSink

namespace Registry

/-- The registry of the built-in types. -/
def builtin : Registry BuiltinSource BuiltinSink where
  sources :=
    [("memory", fun _ config => (MemorySource.ofConfig config).map .memory),
     ("file", fun working config => (FileSource.ofConfig working config).map .file),
     ("http", fun _ config => (HttpSource.ofConfig config).map .http),
     ("https", fun _ config => (HttpSource.ofConfig config).map .http),
     ("kafka", fun _ config => (KafkaSource.ofConfig config).map .kafka)]
  sinks :=
    [("memory", fun _ config => (MemorySink.ofConfig config).map .memory),
     ("file", fun working config => (FileSink.ofConfig working config).map .file),
     ("console", fun _ config => (ConsoleSink.ofConfig config).map .console),
     ("kafka", fun _ config => (KafkaSink.ofConfig config).map .kafka)]

end Registry

end EventPipeline
