import EventPipeline.Files.Path
import EventPipeline.Failure.Basic

/-!
# Notices

What an engine and its pipeline tell their subscribers, in the order in which they tell it. A
subscriber answers a notice at once: it may print, and it may fail. Its answer depends on the notice
and on all notices before it.
-/

namespace EventPipeline

/-- What an engine tells. -/
inductive EngineSignal where
  /-- It runs. -/
  | started
  /-- The sink has taken a value. -/
  | processed (v : Value)
  /-- A filter rejected an event. -/
  | filtered (v : Value)
  /-- Something failed. -/
  | error (f : Failure)
  /-- Values have been written to a file. -/
  | spillover (path : Path) (count : Nat)
  /-- The end of the stream has been handled. -/
  | finished
  /-- It has stopped. -/
  | stopped
  deriving DecidableEq

/-- What a pipeline tells about its own life. -/
inductive Announcement where
  | starting | started | stopping | stopped
  deriving DecidableEq

/-- A notice. -/
inductive Notice where
  /-- A signal of an engine. -/
  | engine (s : EngineSignal)
  /-- An announcement of the pipeline. -/
  | pipeline (a : Announcement)
  deriving DecidableEq

namespace EngineSignal

/-- The name of a signal. -/
def name : EngineSignal → Text
  | started => "started"
  | processed _ => "processed"
  | filtered _ => "filtered"
  | error _ => "error"
  | spillover _ _ => "spillover"
  | finished => "end"
  | stopped => "stopped"

/-- The pipeline passes the signal on under its own name. -/
def isForwarded : EngineSignal → Bool
  | started | stopped => false
  | _ => true

end EngineSignal

namespace Announcement

/-- The name of an announcement. -/
def name : Announcement → Text
  | starting => "starting"
  | started => "started"
  | stopping => "stopping"
  | stopped => "stopped"

end Announcement

namespace Notice

/-- The name under which subscribers of the engine hear a notice. -/
def engineName? : Notice → Option Text
  | engine s => some s.name
  | pipeline _ => none

/-- The name under which subscribers of the pipeline hear a notice. -/
def pipelineName? : Notice → Option Text
  | engine s => if s.isForwarded then some s.name else none
  | pipeline a => some a.name

end Notice

/-- What a subscriber does about a notice. -/
structure Response where
  /-- What it prints. -/
  out : Text
  /-- What it prints for errors. -/
  err : Text
  /-- How it fails, if it does. -/
  failure : Option Failure
  deriving DecidableEq

/-- A subscriber that does nothing. -/
def Response.silent : Response := ⟨[], [], none⟩

/-- What a subscriber does about a notice, given all notices before it. -/
abbrev Subscriber := List Notice → Notice → Response

end EventPipeline
