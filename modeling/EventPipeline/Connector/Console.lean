import EventPipeline.Connector.Sink
import EventPipeline.Json.Printer

/-!
# The console

A sink that prints every value, as indented JSON or as messages show it.
-/

namespace EventPipeline

/-- How values are printed. -/
inductive ConsoleFormat where
  | json | raw
  deriving DecidableEq

/-- A sink that prints. -/
structure ConsoleSink where
  /-- How values are printed. -/
  format : ConsoleFormat

namespace ConsoleFormat

/-- The name of a format. -/
def name : ConsoleFormat → Text
  | json => "json"
  | raw => "raw"

/-- All formats. -/
def all : List ConsoleFormat := [json, raw]

/-- The format that a value names. -/
def ofValue? (v : Value) : Option ConsoleFormat := all.find? fun f => v = .text f.name

end ConsoleFormat

namespace ConsoleSink

/-- The sink of a configuration. -/
def ofConfig (config : Fields) : Except Failure ConsoleSink :=
  let named := (config.find? "format").getD (.text ConsoleFormat.json.name)
  match ConsoleFormat.ofValue? named with
  | some f => .ok ⟨f⟩
  | none => .error (.plain .value ("console sink format must be one of ("
      ++ Text.join ", " (ConsoleFormat.all.map fun f => f.name.quoted) ++ "), got " ++ named.quoted))

/-- A value as it is printed. -/
def shown (s : ConsoleSink) (v : Value) : Text :=
  match s.format with
  | .json => Json.write .indented v
  | .raw => v.quoted

instance : Drain ConsoleSink where
  write v := do
    let (s, _) ← get
    SinkAction.printLine (s.shown v)
  close := return ()

end ConsoleSink

end EventPipeline
