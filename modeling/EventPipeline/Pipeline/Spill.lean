import EventPipeline.Failure.Reading
import EventPipeline.Files.Tree
import EventPipeline.Json.Printer
import EventPipeline.Pipeline.Buffer
import EventPipeline.Text.Lines

/-!
# Spilling

A buffer above its capacity is cut back: the oldest values are written to a file of their own and
only then leave the buffer. The files that are still there are the pending records, in the order
of their writing. Reloading puts the values of the oldest record back in front of the buffer;
discarding removes all pending files without reading them.
-/

namespace EventPipeline

/-- A file of spilled values. -/
structure SpillRecord where
  /-- The file. -/
  path : Path
  /-- The number of the record; later ones have higher numbers. -/
  sequence : Nat
  /-- How many values were written. -/
  count : Nat
  deriving DecidableEq

/-- The spilled values of a buffer. -/
structure Spill where
  /-- The directory of the files. -/
  directory : Path
  /-- The records whose files are still to be read, oldest first. -/
  pending : List SpillRecord
  /-- The number of the next record. -/
  nextSequence : Nat
  deriving DecidableEq

/-- All that spilling acts on. -/
structure SpillState where
  /-- The buffer. -/
  buffer : Buffer
  /-- The spilled values. -/
  spill : Spill
  /-- The files. -/
  files : FileTree
  /-- The number of the next file name. -/
  nextName : Nat
  deriving DecidableEq

/-- A step of spilling that may fail. -/
abbrev Spilling (α : Type) := ExceptT Failure (StateM SpillState) α

namespace Spill

/-- No spilled values, in a directory. -/
def none (directory : Path) : Spill := ⟨directory, [], 0⟩

/-- How many values the pending records were written with. -/
def pendingEvents (s : Spill) : Nat := s.pending.foldr (fun r total => r.count + total) 0

/-- What the names of spill files start with. -/
def fileLead : Text := "spillover-"

-- Powers are the core library's, whatever else is imported.
attribute [local instance (high)] instPowNat in
/-- The name of the file with a number: five groups of hexadecimal digits, of 32, 16, 16, 16 and
48 bits. The first group grows for numbers beyond 128 bits, so that no name is given twice. -/
def fileName (n : Nat) : Text :=
  let group (width shift : Nat) : Text := Text.hex width (n / 2 ^ shift % 2 ^ (4 * width))
  fileLead ++ Text.join "-" [Text.hex 8 (n / 2 ^ (96 : Nat)), group 4 80, group 4 64, group 4 48, group 12 0] ++ ".json"

/-! ### Failures -/

/-- A failure on a spill file. -/
def failure (words : Text) (path : Path) (details : Fields) (f : Failure) : Failure :=
  .structured (.spillover (some path.text)) (words ++ ": " ++ f.message)
    ((.name "path", .text path.text) :: details) Option.none (some f.asCause)

/-- The failure to write values. -/
def writeFailure (path : Path) (count : Nat) (f : Failure) : Failure :=
  failure "Spillover write failed" path [("count", .nat count)] f

/-- The failure to read values back. -/
def readFailure (path : Path) (f : Failure) : Failure :=
  failure "Spillover read failed" path [] f

/-- The failure to remove a file. -/
def removalFailure (path : Path) (f : Failure) : Failure :=
  failure "Spillover file removal failed" path [] f

/-- The failure to remove the directory. -/
def directoryFailure (path : Path) (f : Failure) : Failure :=
  failure "Spillover directory removal failed" path [] f

/-! ### Files -/

/-- Runs a step on the files alone, and words its failure anew. -/
def onFiles {α : Type} (reword : Failure → Failure) (action : FileAction α) : Spilling α := do
  let s ← get
  let (r, files) := action.run.run s.files
  set { s with files := files }
  match r with
  | .ok a => return a
  | .error f => throw (reword f)

/-- Writes a batch of values to a file, making its directory first. -/
def writeBatch (path : Path) (batch : List Value) : FileAction Unit :=
  FileTree.save path (Json.write .spaced (.array batch))

/-- The values in the file of a record. -/
def readBatch (r : SpillRecord) : FileAction (List Value) := do
  let content ← FileTree.read r.path
  match Json.readOrFail content.foldLineEnds with
  | .ok (.array items) => return items
  | .ok _ => throw (.plain .value ("Spillover file does not hold a JSON array: " ++ r.path.text))
  | .error f => throw f

/-! ### Steps -/

/-- Writes the oldest values above the capacity to a new file and drops them from the buffer. -/
def spillIfNeeded (capacity : Int) : Spilling (Option SpillRecord) := do
  let s ← get
  let overflow := s.buffer.length - capacity
  if overflow ≤ 0 then return Option.none
  let batch := s.buffer.peekFront overflow
  let path := s.spill.directory.child (fileName s.nextName)
  set { s with nextName := s.nextName + 1 }
  onFiles (writeFailure path batch.length) (writeBatch path batch)
  let record : SpillRecord := ⟨path, s.spill.nextSequence, batch.length⟩
  modify fun t => { t with
    buffer := t.buffer.dropFront overflow
    spill := { t.spill with
      pending := t.spill.pending ++ [record], nextSequence := t.spill.nextSequence + 1 } }
  return some record

/-- Puts the values of the oldest record back in front of the buffer and removes its file. A file
that cannot be read leaves its record pending. -/
def reload : Spilling (Option SpillRecord) := do
  let s ← get
  match s.spill.pending with
  | [] => return Option.none
  | record :: rest =>
    let batch ← onFiles (readFailure record.path) (readBatch record)
    modify fun t => { t with
      buffer := t.buffer.prepend batch, spill := { t.spill with pending := rest } }
    onFiles (removalFailure record.path) (FileTree.unlink record.path)
    return some record

/-- Removes the files of records, and gives the failures to do so. -/
def removeFiles : List SpillRecord → StateM SpillState (List Failure)
  | [] => return []
  | record :: rest => do
    match ← (onFiles (removalFailure record.path) (FileTree.unlink record.path)).run with
    | .ok () => removeFiles rest
    | .error f => return f :: (← removeFiles rest)

/-- Removes all pending files, then the directory if nothing is left in it. Failures stop nothing
and are given back. -/
def discardAll : StateM SpillState (List Failure) := do
  let s ← get
  set { s with spill := { s.spill with pending := [] } }
  let failures ← removeFiles s.spill.pending
  match ← (onFiles (directoryFailure s.spill.directory) (FileTree.removeIfEmpty s.spill.directory)).run with
  | .ok () => return failures
  | .error f => return failures ++ [f]

example : fileName 1 = "spillover-00000000-0000-0000-0000-000000000001.json" := by decide

end Spill

end EventPipeline
