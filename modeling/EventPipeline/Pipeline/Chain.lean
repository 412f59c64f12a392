import EventPipeline.Pipeline.Accumulation
import EventPipeline.Pipeline.Stage

/-!
# Chains

A chain of stages threads one value from stage to stage. A filter that rejects the value and an
aggregate stage that holds it back end the run, and so does a null. A stage that fails is passed
over: the value goes on to the next stage as it was, and the failure is noted with the index of
the stage.
-/

namespace EventPipeline

/-- What a run of a chain came to. -/
structure Outcome where
  /-- The value after the last stage; nothing if it was dropped or held back. -/
  value : Option Value
  /-- A filter rejected the value. -/
  filtered : Bool
  /-- The failures of stages, in order. -/
  errors : List Failure
  deriving DecidableEq

namespace Outcome

/-- The value that the run delivers, if any; a null counts as none. -/
def delivered? (o : Outcome) : Option Value :=
  match o.value with
  | some .null => none
  | v => v

/-- The outcome with one more failure in front. -/
def noting (f : Failure) (o : Outcome) : Outcome := { o with errors := f :: o.errors }

end Outcome

namespace Chain

/-- How an aggregate stage with an index, a window and a reducer takes a value in: it gives the
reduction if the window closed, and nothing if it did not. -/
abbrev Intake (m : Type → Type) :=
  (index : Nat) → Window → (List Value → Except Failure Value) → Value → m (Except Failure (Option Value))

/-- Runs a value through stages, the first of which has the given index, by a way of taking values
into aggregate stages. -/
def runWith {m : Type → Type} [Monad m] (intake : Intake m) (index : Nat) (v : Option Value) :
    List Stage → m Outcome
  | [] => return ⟨v, false, []⟩
  | s :: rest =>
    match v with
    | none | some .null => return ⟨v, false, []⟩
    | some x =>
      match s with
      | .filter accepts _ =>
        match accepts x with
        | .ok true => runWith intake (index + 1) (some x) rest
        | .ok false => return ⟨none, true, []⟩
        | .error f => return (← runWith intake (index + 1) (some x) rest).noting (s.failure index f)
      | .transform map _ =>
        match map x with
        | .ok y => runWith intake (index + 1) (some y) rest
        | .error f => return (← runWith intake (index + 1) (some x) rest).noting (s.failure index f)
      | .aggregate window reduce _ => do
        match ← intake index window reduce x with
        | .ok y => runWith intake (index + 1) y rest
        | .error f => return (← runWith intake (index + 1) (some x) rest).noting (s.failure index f)

/-- Aggregate stages take their values into the buffer. -/
def bufferIntake (field : Text) : Intake (StateM Accumulator) :=
  fun _ window reduce x => (Accumulator.accumulate field window reduce x).run

/-- Runs an event through a chain. -/
def run (field : Text) (stages : List Stage) (event : Value) : StateM Accumulator Outcome :=
  runWith (bufferIntake field) 0 (some event) stages

/-- The aggregate stages with their indices. -/
def aggregateStages (stages : List Stage) : List (Nat × Stage) :=
  (stages.zipIdx.map fun (s, i) => (i, s)).filter fun (_, s) => s.kind == .aggregate

end Chain

end EventPipeline
