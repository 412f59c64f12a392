import EventPipeline.Connector.Source

/-!
# Watching a source

A source can also run without an engine: an owner starts it, looks on until it is over, waits for
ever or has sent enough, and stops it. The loop of the source and its owner take turns. The loop
keeps its turn until it gives way; after a start it has two turns before the owner goes on, and after
each look of the owner another one. A loop that rests for a time takes part again only when the owner
has nothing else to do.

A watched source may also be halted by whoever hears its events: after a given number of them it is
told that it no longer runs, and finds that out when its loop goes on.
-/

namespace EventPipeline

/-- A source that is watched. -/
structure Watch (σ : Type) where
  /-- The source. -/
  source : Source σ
  /-- The files that it may read. -/
  files : FileTree
  /-- The signals of this run, in order. -/
  signals : List SourceSignal
  /-- How many events it has sent in its life. -/
  seen : Nat
  /-- Its loop rests for a time. -/
  asleep : Bool
  /-- Its loop waits for an answer that does not come. -/
  held : Bool
  /-- After how many events it is halted. -/
  haltAfter : Option Nat

/-- What came of a run: of its start, its stop, and a stop once more. -/
structure WatchedRun where
  /-- What came of the latest start. -/
  started : Except Failure Unit
  /-- It was still running when it was stopped. -/
  wasRunning : Bool
  /-- What came of the stop. -/
  stopped : Except Failure Unit
  /-- What came of the second stop. -/
  stoppedAgain : Except Failure Unit
  /-- The signals, in order. -/
  signals : List SourceSignal

namespace Watch

variable {σ : Type} [Feed σ]

/-- A source that has not been started. -/
def ofFeed (feed : σ) (files : FileTree) (haltAfter : Option Nat) : Watch σ :=
  ⟨.ofFeed feed, files, [], 0, false, false, haltAfter⟩

/-- The signal is an event. -/
def isData : SourceSignal → Bool
  | .data _ => true
  | _ => false

/-- Hears the signal of a move. -/
def hear (w : Watch σ) (signal : Option SourceSignal) : Watch σ :=
  let w := { w with signals := w.signals ++ signal.toList }
  if signal.any isData then
    let seen := w.seen + 1
    { w with seen := seen, source.running := w.source.running && w.haltAfter != some seen }
  else w

/-- The loop has its turn: it makes moves, at most a given number of them, until it gives way. -/
def turn : Nat → Watch σ → Watch σ
  | 0, w => w
  | fuel + 1, w =>
    let (signal, state, s) := w.source.move w.files
    let w := Watch.hear { w with source := s } signal
    match state with
    | .ready | .paused .answer => turn fuel w
    | .paused (.rest timed) => { w with asleep := timed }
    | .waiting => { w with held := true }
    | .over => w

/-- A turn, unless the loop rests for a time, waits or is over. -/
def pass (fuel : Nat) (w : Watch σ) : Watch σ :=
  if w.asleep || w.held || w.source.loop.isNone then w else w.turn fuel

/-- Looks on, for at most a given number of turns, until the loop is over, waits for ever or has sent
as many events as wanted. -/
def lookOn (fuel : Nat) (wanted : Option Nat) : Nat → Watch σ → Watch σ
  | 0, w => w
  | turns + 1, w =>
    if w.source.loop.isNone || w.held || wanted == some w.seen then w
    else lookOn fuel wanted turns (Watch.turn fuel { w with asleep := false })

/-- Starts the source, which has two turns before its owner goes on. -/
def start (fuel : Nat) (w : Watch σ) : Except Failure Unit × Watch σ :=
  let (r, s) := w.source.start
  let isFresh := !w.source.running && r.isOk
  let w := { w with source := s, asleep := w.asleep && !isFresh, held := w.held && !isFresh }
  (r, (w.pass fuel).pass fuel)

/-- Stops the source. -/
def stop (w : Watch σ) : Except Failure Unit × Watch σ :=
  let (announces, s) := w.source.beginStop
  let (r, s) := s.finishStop announces
  let w := { w with source := s }
  match r with
  | .ok signal => (.ok (), { w with signals := w.signals ++ signal.toList })
  | .error f => (.error f, w)

/-- A run of the source, which may be started twice, until it has sent as many events as wanted. -/
def run (fuel : Nat) (twice : Bool) (wanted : Option Nat) (w : Watch σ) : WatchedRun × Watch σ :=
  let (started, w) := Watch.start fuel { w with signals := [], asleep := false, held := false }
  let (started, w) := if twice then (w.pass fuel).start fuel else (started, w)
  let w := w.lookOn fuel wanted fuel
  let wasRunning := w.source.running
  let (stopped, w) := (w.pass fuel).stop
  let (stoppedAgain, w) := w.stop
  (⟨started, wasRunning, stopped, stoppedAgain, w.signals⟩, w)

end Watch

end EventPipeline
