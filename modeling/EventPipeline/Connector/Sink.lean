import EventPipeline.Files.Tree

/-!
# Sinks

A sink takes the values that a pipeline delivers. A write that fails says so; closing a sink twice
does no harm.
-/

namespace EventPipeline

/-- What a sink acts on besides itself. -/
structure Host where
  /-- The files. -/
  files : FileTree
  /-- What has been printed. -/
  out : Text
  /-- What has been printed for errors. -/
  err : Text
  deriving DecidableEq

/-- A step of a sink that may fail. -/
abbrev SinkAction (κ α : Type) := ExceptT Failure (StateM (κ × Host)) α

/-- What is particular to a kind of sink. -/
class Drain (κ : Type) where
  /-- Takes a value. -/
  write : Value → SinkAction κ Unit
  /-- Takes no more values. -/
  close : SinkAction κ Unit

namespace SinkAction

variable {κ α : Type}

/-- Runs a step on the files. -/
def onFiles (action : FileAction α) : SinkAction κ α := do
  let (k, host) ← get
  let (r, files) := action.run.run host.files
  set (k, { host with files := files })
  match r with
  | .ok a => return a
  | .error f => throw f

/-- Prints a line. -/
def printLine (t : Text) : SinkAction κ Unit :=
  modify fun (k, host) => (k, { host with out := host.out ++ t ++ "\n" })

/-- Runs a step on a part of the sink. -/
def onPart {κ' : Type} (part : κ') (whole : κ' → κ) (action : SinkAction κ' α) : SinkAction κ α := do
  let (_, host) ← get
  let (r, (k, host)) := action.run.run (part, host)
  set (whole k, host)
  match r with
  | .ok a => return a
  | .error f => throw f

end SinkAction

/-- Drains of two kinds side by side. -/
instance {κ κ' : Type} [Drain κ] [Drain κ'] : Drain (κ ⊕ κ') where
  write v := do
    match ← get with
    | (.inl k, _) => SinkAction.onPart k .inl (Drain.write v)
    | (.inr k, _) => SinkAction.onPart k .inr (Drain.write v)
  close := do
    match ← get with
    | (.inl k, _) => SinkAction.onPart k .inl Drain.close
    | (.inr k, _) => SinkAction.onPart k .inr Drain.close

end EventPipeline
