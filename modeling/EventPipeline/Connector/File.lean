import EventPipeline.Connector.Memory
import EventPipeline.Connector.Table
import EventPipeline.Failure.Reading
import EventPipeline.Json.Printer

/-!
# File connectors

A source that reads a file, one event per row of a table or per line of JSON, and a sink that adds
one line of JSON per value to a file. A line that is no JSON is sent as an error; a missing file is
sent as an error too, and then no end is announced.
-/

namespace EventPipeline

/-- A source that reads a file. -/
structure FileSource where
  /-- The file. -/
  path : Path

/-- A sink that adds to a file. -/
structure FileSink where
  /-- The file. -/
  path : Path
  /-- The file has been opened and not been closed. -/
  opened : Bool

/-- The path in a configuration, as seen from a working directory. -/
def pathOfConfig (role : Text) (working : Text) (config : Fields) : Except Failure Path :=
  let refuse : Except Failure Path := .error (.plain .value ("File " ++ role ++ " requires a path"))
  match config.find? "path" with
  | some (.text t) => if t.isBlank then refuse else .ok ((Path.ofText t).absoluteIn working)
  | _ => refuse

namespace FileSource

/-- The source of a configuration. -/
def ofConfig (working : Text) (config : Fields) : Except Failure FileSource :=
  (pathOfConfig "source" working config).map FileSource.mk

/-- The failure of a line that is no JSON. -/
def lineFailure (number : Nat) (line : Text) (e : Json.Error) : Failure :=
  .plain .value ("Failed to parse line " ++ Text.ofNat number ++ ": " ++ line ++ " (" ++ e.complaint.message ++ ")")

/-- The record of a line, unless the line is blank. -/
def lineRecord? (number : Nat) (raw : Text) : Option Record :=
  match raw.strip with
  | [] => none
  | line =>
    match Json.read line with
    | .ok v => some (.event v)
    | .error e => some (.fault (lineFailure number line e))

/-- The records of a text with one JSON value per line. -/
def lineRecords (t : Text) : List Record :=
  (t.fileLines.zipIdx 1).filterMap fun (raw, number) => lineRecord? number raw

/-- The records of a file, by the suffix of its name. -/
def recordsOf (path : Path) (content : Text) : Except Failure (List Record) :=
  let suffix := path.suffix.lower
  if suffix = ".csv" then .ok (CellTable.records content)
  else if suffix = ".parquet" then .error (.plain .absence "no reader for parquet files")
  else .ok (lineRecords content)

/-- The next move of the loop. -/
def advance (files : FileTree) (running : Bool) (p : Progress) (s : FileSource) : Advance FileSource :=
  match p with
  | .reading [] => ⟨.finish, s, .head⟩
  | .reading (.fault f :: rest) => ⟨.error f, s, .reading rest⟩
  | .reading (.event v :: rest) =>
    if running then ⟨.data v, s, .resting (some rest)⟩ else ⟨.leave, s, .head⟩
  | .resting (some rest) => ⟨.pause (.rest false), s, .reading rest⟩
  | .resting none => ⟨.leave, s, .head⟩
  | .asked => ⟨.leave, s, .head⟩
  | .head =>
    match files.node? s.path with
    | some (.file content) =>
      match recordsOf s.path content with
      | .ok records => ⟨.skip, s, .reading records⟩
      | .error f => ⟨.fail f, s, .head⟩
    | _ => ⟨.error (.plain (.file .notFound) ("File not found: " ++ s.path.text)), s, .resting none⟩

instance : Feed FileSource where
  connect s := (.ok (), s)
  advance := advance
  disconnect s := (.ok (), s)
  endsOnStop _ _ := false

end FileSource

namespace FileSink

/-- The sink of a configuration. -/
def ofConfig (working : Text) (config : Fields) : Except Failure FileSink :=
  (pathOfConfig "sink" working config).map fun path => ⟨path, false⟩

/-- Opens the file if that has not been done, making its directory first. -/
def openFile : SinkAction FileSink Unit := do
  let (s, _) ← get
  if s.opened then return ()
  SinkAction.onFiles do
    FileTree.makePath s.path.parent
    FileTree.openFile s.path id
  modify fun (s, host) => ({ s with opened := true }, host)

/-- Adds a line to the file. -/
def write (v : Value) : SinkAction FileSink Unit := do
  openFile
  let (s, _) ← get
  SinkAction.onFiles (FileTree.extend s.path (Json.write .spaced v ++ "\n"))

instance : Drain FileSink where
  write := write
  close := modify fun (s, host) => ({ s with opened := false }, host)

end FileSink

end EventPipeline
