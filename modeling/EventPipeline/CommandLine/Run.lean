import EventPipeline.Pipeline.Schedule

/-!
# Running a pipeline

A pipeline is started, runs until a condition comes true, and is stopped. What its subscribers hear
is printed: the start and the stop, the end of the source, spilled values, and errors.
-/

namespace EventPipeline

namespace CommandLine

variable {σ κ : Type} [Feed σ] [Drain κ]

/-- The response that prints a line. -/
def printed (t : Text) : Response := ⟨t ++ "\n", [], none⟩

/-- The response that prints a line for errors. -/
def complained (t : Text) : Response := ⟨[], t ++ "\n", none⟩

/-- What is printed about a notice. -/
def responseTo : Notice → Response
  | .pipeline .started => printed "Pipeline started"
  | .pipeline .stopped => printed "Pipeline stopped"
  | .engine .finished => printed "Source ended"
  | .engine (.error f) => complained ("Pipeline error: " ++ f.message)
  | .engine (.spillover path count) =>
    printed ("Spillover: " ++ Text.ofNat count ++ " events written to " ++ path.text)
  | _ => .silent

/-- The subscriber that prints. -/
def printer : Subscriber := fun _ n => responseTo n

/-- Prints a line. -/
def printLine (t : Text) : PipelineAction σ κ Value := do
  modify fun p => { p with world.host.out := p.world.host.out ++ t ++ "\n" }
  return .null

/-- The request to start a pipeline. -/
def opening (env : Environment σ κ) (options : EngineOptions) : List (Request σ κ) :=
  [.call (Pipeline.start env options)]

/-- The requests to wait for a condition and to stop the pipeline then. -/
def closing (env : Environment σ κ) (ready : Condition σ κ) : List (Request σ κ) :=
  [.await ready, .act (printLine "Shutting down..."), .call (Pipeline.stop env)]

/-- What came of the requests, once all of them have been answered. -/
def outcome? (s : Schedule σ κ) : Option (Except Failure Unit) :=
  if s.isServed then
    match s.results.getLast? with
    | some (.error f) => some (.error f)
    | _ => some (.ok ())
  else none

/-- Starts a pipeline, waits for a condition and stops the pipeline. Nothing has come of it yet if
the condition is still to be waited for when nothing is left to do. -/
def runPipeline (env : Environment σ κ) (interrupts : Notice → Bool) (fuel : Nat) (options : EngineOptions)
    (ready : Condition σ κ) (p : Pipeline σ κ) : Option (Except Failure Unit) × Schedule σ κ :=
  let s := ((Schedule.ofPipeline p).demand (opening env options)).serve env interrupts fuel
  match outcome? s with
  | some (.ok ()) =>
    let s := (s.demand (closing env ready)).serve env interrupts fuel
    (outcome? s, s)
  | r => (r, s)

/-- Goes on after an interruption from outside. -/
def interrupt (env : Environment σ κ) (interrupts : Notice → Bool) (fuel : Nat) (s : Schedule σ κ) :
    Option (Except Failure Unit) × Schedule σ κ :=
  let s := (Schedule.note interrupts { s with rung := true }).serve env interrupts fuel
  (outcome? s, s)

end CommandLine

end EventPipeline
