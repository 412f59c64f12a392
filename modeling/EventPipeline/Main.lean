import EventPipeline.CommandLine.Program
import Std.Time.DateTime.Timestamp

/-!
# The executable

Brings the command line, the clock and the files that are named to the program, and brings back what
it prints and what it leaves in files. The files are those below the working directory. A running
pipeline is interrupted by the end of the standard input.
-/

namespace EventPipeline

namespace Main

/-- More steps than any run takes. -/
def fuel : Nat := Nat.pow 2 62

/-- What stands at a path of the file system. -/
def look (path : String) : IO (Option Node) := do
  try
    return some (.file (Text.ofString (← IO.FS.readFile path)))
  catch _ =>
    try
      let _ ← IO.FS.Handle.mk path .read
      return some .directory
    catch _ => return none

/-- The tree with what stands at a location. -/
def addLocation (files : FileTree) (loc : Location) : IO FileTree := do
  if (files.nodeAt? loc).isSome then return files
  match ← look (Text.join "/" loc).toString with
  | some node => return files.put loc node
  | none => return files

/-- The tree with what stands at a path and above it. -/
def addPath (files : FileTree) (path : Path) : IO FileTree := do
  let path := files.absolute path
  if path.lead ≠ files.working ++ "/" then return files
  (List.range path.names.length).foldlM (fun files n => addLocation files (path.names.take (n + 1))) files

/-- Brings what has changed in the tree to the file system. -/
def save (before after : FileTree) : IO Unit := do
  for (loc, node) in after.nodes do
    if before.nodeAt? loc ≠ some node then
      let path := (Text.join "/" loc).toString
      match node with
      | .directory => IO.FS.createDirAll path
      | .file content => IO.FS.writeFile path content.toString
  for (loc, node) in before.nodes.reverse do
    if (after.nodeAt? loc).isNone then
      let path := (Text.join "/" loc).toString
      match node with
      | .directory => IO.FS.removeDir path
      | .file _ => IO.FS.removeFile path

/-- Prints what the host has been told to print and saves its files. -/
def flush (before : FileTree) (host : Host) : IO Unit := do
  IO.print host.out.toString
  IO.eprint host.err.toString
  save before host.files

/-- Waits for the end of the standard input. -/
def awaitEnd : IO Unit := do
  let stdin ← IO.getStdin
  repeat
    if (← stdin.getLine).isEmpty then break

/-- The exit code of an ending. -/
def codeOf : CommandLine.Ending → IO UInt32
  | .done code | .left code => return code.toUInt32
  | .broken f => do
    IO.eprintln (f.name ++ ": " ++ f.message : Text).toString
    return 1

/-- The schedule with everything printed. -/
def printed (s : Schedule BuiltinSource BuiltinSink) : Schedule BuiltinSource BuiltinSink :=
  { s with pipeline.world.host.out := [], pipeline.world.host.err := [] }

/-- Does what the command line asks for. -/
def start (words : List Text) : IO UInt32 := do
  let working := Text.ofString (toString (← IO.currentDir))
  let now := (← Std.Time.Timestamp.now).toMillisecondsSinceUnixEpoch.val
  let files ← (CommandLine.namedPaths words).foldlM addPath ⟨working, []⟩
  let files ← (CommandLine.connectorPaths now files words).foldlM addPath files
  match CommandLine.execute now (fun _ => false) fuel ⟨files, [], []⟩ words with
  | .ended e host =>
    flush files host
    codeOf e
  | .waiting s =>
    let host := s.pipeline.world.host
    flush files host
    awaitEnd
    match CommandLine.resume fuel (.waiting (printed s)) with
    | .ended e later =>
      flush host.files later
      codeOf e
    | .waiting _ => return 1

end Main

end EventPipeline

/-- The entry of the executable. -/
def main (args : List String) : IO UInt32 :=
  EventPipeline.Main.start (args.map EventPipeline.Text.ofString)
