import EventPipeline.Pipeline.Lifecycle

/-!
# Schedules

Three parties act on a pipeline: a caller, who works off requests, and the source and the consumer of
its engine. They take turns: a party acts until it has to wait or gives way, and then it is the next
party's turn. Whoever can go on again lines up behind the others, in the order in which that came
about. A source that rests for a time lines up when nobody else is left.

An interruption from outside reaches the caller by way of two more turns: it is noticed at the start
of a round, and the round after that one rings the bell that the caller may wait for.
-/

namespace EventPipeline

/-- Whose turn it is. -/
inductive Party where
  /-- The consumer of the engine. -/
  | consumer
  /-- The loop of the source. -/
  | source
  /-- The caller. -/
  | caller
  /-- Notices an interruption. -/
  | watch
  /-- Rings the bell. -/
  | bell
  deriving DecidableEq

/-- What a caller waits for: it depends on whether the bell has been rung and on the pipeline. -/
abbrev Condition (σ κ : Type) := Bool → Pipeline σ κ → Except Failure Bool

/-- What a caller wants. -/
inductive Request (σ κ : Type) where
  /-- Something that is done at once. -/
  | act (action : PipelineAction σ κ Value)
  /-- Something that may take several pieces. -/
  | call (action : PipelineAction σ κ (Option PipelineCall))
  /-- To wait. -/
  | await (ready : Condition σ κ)

/-- Where the caller stands. -/
inductive Caller (σ κ : Type) where
  /-- Before the next request. -/
  | free
  /-- Inside a call. -/
  | within (call : PipelineCall)
  /-- At a condition. -/
  | waiting (ready : Condition σ κ)

/-- A pipeline and those who act on it. -/
structure Schedule (σ κ : Type) where
  /-- The pipeline. -/
  pipeline : Pipeline σ κ
  /-- Who is still to act in this round. -/
  round : List Party
  /-- Who is to act in the next round. -/
  later : List Party
  /-- The source rests for a time. -/
  asleep : Bool
  /-- The source waits for an answer that does not come. -/
  held : Bool
  /-- Where the caller stands. -/
  caller : Caller σ κ
  /-- What the caller still wants. -/
  requests : List (Request σ κ)
  /-- What came of the requests so far. -/
  results : List (Except Failure Value)
  /-- How many notices have been looked at for an interruption. -/
  heard : Nat
  /-- An interruption is still to be noticed. -/
  interrupted : Bool
  /-- The bell has been rung. -/
  rung : Bool

namespace Schedule

variable {σ κ α : Type}

/-- A pipeline with nothing to do. -/
def ofPipeline (p : Pipeline σ κ) : Schedule σ κ :=
  ⟨p, [], [], false, false, .free, [], [], p.world.notices.length, false, false⟩

/-- The number of the engine that is acted on, the latest one. -/
def active (s : Schedule σ κ) : Nat := s.pipeline.engines.length - 1

/-- The engine that is acted on. -/
def engine? (s : Schedule σ κ) : Option (Engine σ κ) := s.pipeline.engines.getLast?

/-- The party has its turn in this round or the next. -/
def isListed (s : Schedule σ κ) (p : Party) : Bool := s.round.contains p || s.later.contains p

/-- The loop of the source has not come to its end. -/
def hasLoop (s : Schedule σ κ) : Bool :=
  (s.engine?.bind (·.source)).any fun source => source.loop.isSome

/-- The source is somewhere: in a turn to come, at rest or waiting. -/
def hasSource (s : Schedule σ κ) : Bool := s.isListed .source || s.asleep || s.held

/-- The consumer has something to do. -/
def isConsumerBusy (s : Schedule σ κ) : Bool := s.engine?.any Engine.isBusy

/-- The consumer has left for good. -/
def isConsumerGone (s : Schedule σ κ) : Bool :=
  match s.engine? with
  | none => true
  | some e =>
    match e.consumer with
    | .waiting | .writing .. => false
    | _ => true

/-! ### The caller -/

/-- The next piece of a call can be done. -/
def isReady (s : Schedule σ κ) : EngineCall → Bool
  | .stoppingSource _ => !s.hasSource
  | .emptyingQueue => s.isConsumerGone
  | _ => true

/-- The part of a call that its engine does. -/
def engineCall : PipelineCall → EngineCall
  | .starting _ call | .stopping _ call | .alone _ call => call

/-- The caller can go on. -/
def canCall (s : Schedule σ κ) : Bool :=
  match s.caller with
  | .free => !s.requests.isEmpty
  | .within call => s.isReady (engineCall call)
  | .waiting ready =>
    match ready s.rung s.pipeline with
    | .ok b => b
    | .error _ => true

/-- The caller has got what it wanted. -/
def isServed (s : Schedule σ κ) : Bool :=
  match s.caller with
  | .free => s.requests.isEmpty
  | _ => false

/-- A request has been answered. -/
def answer (s : Schedule σ κ) (r : Except Failure Value) : Schedule σ κ :=
  { s with caller := .free, results := s.results ++ [r] }

/-- Runs a step of the pipeline. -/
def run (s : Schedule σ κ) (action : PipelineAction σ κ α) : Except Failure α × Schedule σ κ :=
  let (r, p) := action.run.run s.pipeline
  (r, { s with pipeline := p })

/-- The caller does a piece of a call. -/
def callPiece (s : Schedule σ κ) (action : PipelineAction σ κ (Option PipelineCall)) : Schedule σ κ :=
  match s.run action with
  | (.ok none, s) => s.answer (.ok .null)
  | (.ok (some call), s) => { s with caller := .within call }
  | (.error f, s) => s.answer (.error f)

/-- The caller goes on with a request. -/
def beginRequest (s : Schedule σ κ) : Request σ κ → Schedule σ κ
  | .act action =>
    let (r, s) := s.run action
    s.answer r
  | .call action => s.callPiece action
  | .await ready => { s with caller := .waiting ready }

variable [Feed σ] [Drain κ] (env : Environment σ κ)

/-- The caller makes a step. -/
def callerStep (s : Schedule σ κ) : Schedule σ κ :=
  match s.caller with
  | .free =>
    match s.requests with
    | [] => s
    | r :: rest => Schedule.beginRequest { s with requests := rest } r
  | .within call => s.callPiece (Pipeline.proceed env call)
  | .waiting ready =>
    match ready s.rung s.pipeline with
    | .ok _ => s.answer (.ok .null)
    | .error f => s.answer (.error f)

/-! ### Lining up -/

/-- A party lines up for the next round. -/
def lineUp (s : Schedule σ κ) (p : Party) : Schedule σ κ := { s with later := s.later ++ [p] }

/-- A party lines up if it has reason to and no turn yet. -/
def lineUpIf (s : Schedule σ κ) (reason : Bool) (p : Party) : Schedule σ κ :=
  if reason && !s.isListed p then s.lineUp p else s

/-- The caller waits for the loop of the source to end. -/
def isCallerStoppingSource (s : Schedule σ κ) : Bool :=
  match s.caller with
  | .within call =>
    match engineCall call with
    | .stoppingSource _ => true
    | _ => false
  | _ => false

/-- A source that is being stopped neither rests nor waits any longer. -/
def rouse (s : Schedule σ κ) : Schedule σ κ :=
  if s.isCallerStoppingSource && (s.asleep || s.held) then
    Schedule.lineUpIf { s with asleep := false, held := false } true .source
  else s

/-- Looks at the latest notices for an interruption. -/
def listen (interrupts : Notice → Bool) (s : Schedule σ κ) : Schedule σ κ :=
  let notices := s.pipeline.world.notices
  { s with
    heard := notices.length
    interrupted := s.interrupted || (notices.drop s.heard).any interrupts }

/-- Lets everybody line up who can go on after a step. -/
def note (interrupts : Notice → Bool) (s : Schedule σ κ) : Schedule σ κ :=
  let s := s.rouse.listen interrupts
  let s := s.lineUpIf s.isConsumerBusy .consumer
  let s := s.lineUpIf (s.hasLoop && !s.hasSource) .source
  s.lineUpIf s.canCall .caller

/-! ### Turns -/

/-- The consumer makes a step; its turn is over when nothing is left to do. -/
def consumerTurn (s : Schedule σ κ) (rest : List Party) : Schedule σ κ :=
  let (_, s) := s.run (Pipeline.onEngine s.active () (Engine.consume env))
  if s.isConsumerBusy then s else { s with round := rest }

/-- The source makes a move; its turn is over when it gives way. -/
def sourceTurn (s : Schedule σ κ) (rest : List Party) : Schedule σ κ :=
  if s.hasLoop then
    let (r, s) := s.run (Pipeline.onEngine s.active .over (Engine.moveSource env))
    match r with
    | .ok .ready | .ok (.paused .answer) => s
    | .ok (.paused (.rest false)) => Schedule.lineUp { s with round := rest } .source
    | .ok (.paused (.rest true)) => { s with round := rest, asleep := true }
    | .ok .waiting => { s with round := rest, held := true }
    | _ => { s with round := rest }
  else { s with round := rest }

/-- The caller makes a step if it can; else its turn is over. -/
def callerTurn (s : Schedule σ κ) (rest : List Party) : Schedule σ κ :=
  if s.canCall then s.callerStep env else { s with round := rest }

/-- Begins a new round, if there is anything to do in it. -/
def newRound (s : Schedule σ κ) : Option (Schedule σ κ) :=
  let watch := if s.interrupted then [Party.watch] else []
  match s.later ++ watch with
  | [] =>
    if s.asleep then some { s with round := [.source], asleep := false } else none
  | parties => some { s with round := parties, later := [], interrupted := false }

/-- Makes the next step, if there is anything to do. -/
def step (interrupts : Notice → Bool) (s : Schedule σ κ) : Option (Schedule σ κ) :=
  match s.round with
  | [] => s.newRound
  | .consumer :: rest => some ((s.consumerTurn env rest).note interrupts)
  | .source :: rest => some ((s.sourceTurn env rest).note interrupts)
  | .caller :: rest => some ((s.callerTurn env rest).note interrupts)
  | .watch :: rest => some (Schedule.lineUp { s with round := rest } .bell)
  | .bell :: rest => some (Schedule.note interrupts { s with round := rest, rung := true })

/-! ### Runs -/

/-- Gives the caller requests and the first turn. -/
def demand (s : Schedule σ κ) (requests : List (Request σ κ)) : Schedule σ κ :=
  { s with requests := requests, results := [], round := .caller :: s.round }

/-- Makes steps, at most a given number of them, until the caller has got what it wanted or nothing
is left to do. -/
def serve (interrupts : Notice → Bool) : Nat → Schedule σ κ → Schedule σ κ
  | 0, s => s
  | fuel + 1, s =>
    if s.isServed then s
    else match s.step env interrupts with
      | none => s
      | some s => serve interrupts fuel s

/-- Makes steps, at most a given number of them, until nothing is left to do. -/
def settle (interrupts : Notice → Bool) : Nat → Schedule σ κ → Schedule σ κ
  | 0, s => s
  | fuel + 1, s =>
    match s.step env interrupts with
    | none => s
    | some s => settle interrupts fuel s

end Schedule

end EventPipeline
