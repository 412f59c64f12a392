import EventPipeline.Files.Tree

/-!
# Sources

A source gives events from a loop of its own, which runs between the start and the stop of the
source. The loop proceeds in moves: it sends a signal, gives way to others, waits for a client that
does not answer, or ends. What differs from one kind of source to another is its *feed*: how it is
opened and closed, and what the next move is. All else is common to them:

* starting a source that runs does nothing; stopping it ends its loop wherever that stands;
* the end is announced at most once in the life of a source, and no event follows it;
* a failure inside the loop is sent as an error, and the loop ends.
-/

namespace EventPipeline

/-- What a source tells its subscribers. -/
inductive SourceSignal where
  /-- An event. -/
  | data (v : Value)
  /-- No event will follow. -/
  | finished
  /-- Something went wrong. -/
  | error (f : Failure)
  deriving DecidableEq

/-- What was found at one place of a file. -/
inductive Record where
  /-- An event. -/
  | event (v : Value)
  /-- Something that is no event. -/
  | fault (f : Failure)
  deriving DecidableEq

/-- Where a loop stands. -/
inductive Progress where
  /-- At the head of the loop. -/
  | head
  /-- A client was asked and has not answered yet. -/
  | asked
  /-- Before the next record of a file. -/
  | reading (rest : List Record)
  /-- After an event, before it gives way; then it goes on with the records of a file, if it reads
  one, and else at the head. -/
  | resting (rest : Option (List Record))
  deriving DecidableEq

/-- Why a loop gives way. -/
inductive Pause where
  /-- A client has been asked. -/
  | answer
  /-- It rests, for a time or just for the others' sake. -/
  | rest (timed : Bool)
  deriving DecidableEq

/-- The next thing that a loop does. -/
inductive Move where
  /-- It sends an event. -/
  | data (v : Value)
  /-- It sends an error. -/
  | error (f : Failure)
  /-- It announces the end and leaves. -/
  | finish
  /-- It goes on without a word. -/
  | skip
  /-- It gives way. -/
  | pause (p : Pause)
  /-- It waits for an answer that does not come. -/
  | wait
  /-- It leaves. -/
  | leave
  /-- It fails. -/
  | fail (f : Failure)
  deriving DecidableEq

/-- A move, with the feed and the place after it. -/
structure Advance (σ : Type) where
  /-- The move. -/
  move : Move
  /-- The feed after it. -/
  feed : σ
  /-- Where the loop stands after it. -/
  progress : Progress

/-- A move of one kind of source as a move of another one. -/
def Advance.map {σ τ : Type} (f : σ → τ) (a : Advance σ) : Advance τ := ⟨a.move, f a.feed, a.progress⟩

/-- What is particular to a kind of source. -/
class Feed (σ : Type) where
  /-- Sets up what the loop needs. -/
  connect : σ → Except Failure Unit × σ
  /-- The next move of the loop, given whether the source is running. -/
  advance : FileTree → Bool → Progress → σ → Advance σ
  /-- Takes down what the loop needed. -/
  disconnect : σ → Except Failure Unit × σ
  /-- Stopping the source announces the end, given whether the source is running. -/
  endsOnStop : Bool → σ → Bool

/-- Feeds of two kinds side by side. -/
instance {σ τ : Type} [Feed σ] [Feed τ] : Feed (σ ⊕ τ) where
  connect
    | .inl s => (Feed.connect s).map id .inl
    | .inr t => (Feed.connect t).map id .inr
  advance files running p
    | .inl s => (Feed.advance files running p s).map .inl
    | .inr t => (Feed.advance files running p t).map .inr
  disconnect
    | .inl s => (Feed.disconnect s).map id .inl
    | .inr t => (Feed.disconnect t).map id .inr
  endsOnStop running
    | .inl s => Feed.endsOnStop running s
    | .inr t => Feed.endsOnStop running t

/-- A source. -/
structure Source (σ : Type) where
  /-- What is particular to its kind. -/
  feed : σ
  /-- It runs. -/
  running : Bool
  /-- It has announced the end. -/
  ended : Bool
  /-- The loop of the latest start, if it has neither ended nor been stopped. -/
  loop : Option Progress
  /-- Loops of earlier starts that have not ended. -/
  strays : List Progress

/-- What came of a move: a signal, and whether the loop goes on at once. -/
inductive LoopState where
  /-- The loop can make its next move. -/
  | ready
  /-- The loop gave way. -/
  | paused (p : Pause)
  /-- The loop waits for ever. -/
  | waiting
  /-- The loop is over. -/
  | over
  deriving DecidableEq

namespace Source

variable {σ : Type}

/-- A source that has not been started. -/
def ofFeed (feed : σ) : Source σ := ⟨feed, false, false, none, []⟩

/-- The source with an event to send, unless the end has been announced. -/
def sendData (s : Source σ) (v : Value) : Option SourceSignal :=
  if s.ended then none else some (.data v)

/-- The source announces the end, unless it has done so before. -/
def sendEnd (s : Source σ) : Option SourceSignal × Source σ :=
  if s.ended then (none, s) else (some .finished, { s with ended := true })

/-- Starts the source, unless it runs. -/
def start [Feed σ] (s : Source σ) : Except Failure Unit × Source σ :=
  if s.running then (.ok (), s)
  else
    match Feed.connect s.feed with
    | (.error f, feed) => (.error f, { s with feed := feed })
    | (.ok (), feed) =>
      (.ok (), { s with
        feed := feed, running := true, loop := some .head, strays := s.strays ++ s.loop.toList })

/-- Makes the next move of a loop of the source. The place of the loop is nothing once it is over. -/
def moveLoop [Feed σ] (files : FileTree) (p : Progress) (s : Source σ) :
    Option SourceSignal × LoopState × Option Progress × Source σ :=
  let a := Feed.advance files s.running p s.feed
  let s := { s with feed := a.feed }
  match a.move with
  | .data v => (s.sendData v, .ready, some a.progress, s)
  | .error f => (some (.error f), .ready, some a.progress, s)
  | .skip => (none, .ready, some a.progress, s)
  | .pause k => (none, .paused k, some a.progress, s)
  | .wait => (none, .waiting, some a.progress, s)
  | .finish =>
    let (signal, s) := s.sendEnd
    (signal, .over, none, { s with running := false })
  | .leave => (none, .over, none, { s with running := false })
  | .fail f => (some (.error f), .over, none, { s with running := false })

/-- Makes the next move of the loop of the latest start. -/
def move [Feed σ] (files : FileTree) (s : Source σ) : Option SourceSignal × LoopState × Source σ :=
  match s.loop with
  | none => (none, .over, s)
  | some p =>
    let (signal, state, p, s) := s.moveLoop files p
    (signal, state, { s with loop := p })

/-- Ends the loop of the latest start after a subscriber failed on its signal. -/
def abandon (s : Source σ) : Source σ := { s with running := false, loop := none }

/-- Begins to stop the source: its loop makes no further move. Also tells whether the stop will
announce the end. -/
def beginStop [Feed σ] (s : Source σ) : Bool × Source σ :=
  (Feed.endsOnStop s.running s.feed, { s with running := false, loop := none })

/-- Stops the source, once its loop is over. -/
def finishStop [Feed σ] (announces : Bool) (s : Source σ) : Except Failure (Option SourceSignal) × Source σ :=
  match Feed.disconnect s.feed with
  | (.error f, feed) => (.error f, { s with feed := feed })
  | (.ok (), feed) =>
    let s := { s with feed := feed }
    if announces then
      let (signal, s) := s.sendEnd
      (.ok signal, s)
    else (.ok none, s)

end Source

end EventPipeline
