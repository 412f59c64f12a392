import EventPipeline.Failure.Basic

/-!
# Emitters

An emitter declares the signals that it sends and keeps the handlers subscribed to each of them, in
the order of their subscription. Sending a signal calls the handlers that are subscribed at that
moment; what they subscribe or cancel meanwhile counts from the next sending on. A handler may do
all that a caller may do, also send signals, and a failing handler ends the sending that called it.
-/

namespace EventPipeline

/-- The handlers of an emitter. -/
structure Emitter (η : Type) where
  /-- The name of the kind of emitter, for messages. -/
  name : Text
  /-- The signals that it sends. -/
  declared : List Text
  /-- The handlers of each signal, in the order of their subscription. -/
  handlers : Table Text (List η)

/-- A call of a handler with the arguments of a signal. -/
abbrev HandlerCall (η : Type) := η × List Value

/-- What happens at an emitter. -/
inductive Happening (η : Type) where
  /-- A signal begins to be sent. -/
  | begun (signal : Text) (arguments : List Value)
  /-- A handler is called. -/
  | called (h : η) (arguments : List Value)
  /-- The handler that was called last, of those that are still at work, comes to its end or fails. -/
  | left (h : η) (outcome : Except Failure Unit)
  /-- The sending that was begun last, of those that are still under way, is over. -/
  | ended (outcome : Except Failure Unit)
  /-- A handler is subscribed. -/
  | subscribed (signal : Text) (h : η)
  /-- The earliest subscription of a handler is cancelled, if there is one. -/
  | cancelled (signal : Text) (h : η)

/-- An emitter and all that has happened at it. -/
structure Delivered (η : Type) where
  /-- The emitter. -/
  emitter : Emitter η
  /-- What has happened, in order. -/
  journal : List (Happening η)

/-- The call that happens. -/
def Happening.call? {η : Type} : Happening η → Option (HandlerCall η)
  | called h arguments => some (h, arguments)
  | _ => none

/-- All calls of handlers so far, in order. -/
def Delivered.calls {η : Type} (s : Delivered η) : List (HandlerCall η) := s.journal.filterMap Happening.call?

/-- One thing that a handler does. -/
inductive Reaction (η : Type) where
  /-- It fails. -/
  | fail (f : Failure)
  /-- It subscribes a handler. -/
  | subscribe (signal : Text) (h : η)
  /-- It cancels a subscription. -/
  | cancel (signal : Text) (h : η)
  /-- It sends a signal. -/
  | send (signal : Text) (arguments : List Value)
  /-- It counts the handlers of a signal. -/
  | count (signal : Text)
  /-- It does one thing, bears it if that fails, and goes on by what came of it and by what it sees. -/
  | attempt (first : Reaction η) (next : Except Failure Unit → Delivered η → Reaction η)

/-- What a handler does once it has been called, given all calls so far, the last of which is its
own. -/
abbrev Behaviour (η : Type) := List (HandlerCall η) → List (Reaction η)

/-- A step of an emitter that may fail. -/
abbrev Delivery (η α : Type) := ExceptT Failure (StateM (Delivered η)) α

namespace Emitter

variable {η : Type} [DecidableEq η]

/-- The handlers of a signal. -/
def handlersOf (e : Emitter η) (signal : Text) : List η := (e.handlers.find? signal).getD []

/-- The number of subscriptions to a signal; nobody is subscribed to one that is not declared. -/
def listenerCount (e : Emitter η) (signal : Text) : Nat := (e.handlersOf signal).length

/-- A signal has to be declared. -/
def check (e : Emitter η) (signal : Text) : Except Failure Unit :=
  if e.declared.contains signal then .ok ()
  else .error (.plain .value ("Unknown signal " ++ signal.quoted ++ " for " ++ e.name
    ++ "; expected one of " ++ Text.quotedList (Text.sort e.declared.eraseDups)))

/-- Subscribes a handler once more. -/
def subscribe (e : Emitter η) (signal : Text) (h : η) : Except Failure (Emitter η) := do
  e.check signal
  return { e with handlers := e.handlers.set signal (e.handlersOf signal ++ [h]) }

/-- Cancels the earliest subscription of a handler, if there is one. -/
def cancel (e : Emitter η) (signal : Text) (h : η) : Except Failure (Emitter η) := do
  e.check signal
  return { e with handlers := e.handlers.set signal ((e.handlersOf signal).erase h) }

end Emitter

namespace Delivered

variable {η : Type}

/-- Something happens. -/
def note (x : Happening η) : Delivery η Unit :=
  modify fun s => { s with journal := s.journal ++ [x] }

/-- A step with a beginning and an end that are told, also if it fails. -/
def enclose (start : Happening η) (stop : Except Failure Unit → Happening η) (body : Delivery η Unit) :
    Delivery η Unit := do
  note start
  let outcome ← ExceptT.lift body.run
  note (stop outcome)
  match outcome with
  | .ok () => return ()
  | .error f => throw f

/-- Replaces the emitter by the result of a step on it. -/
def change (x : Happening η) (step : Emitter η → Except Failure (Emitter η)) : Delivery η Unit := do
  let s ← get
  match step s.emitter with
  | .ok e =>
    set { s with emitter := e }
    note x
  | .error f => throw f

variable [DecidableEq η]

/-- Carries out one thing that a handler does, given how signals are sent. -/
def react (send : Text → List Value → Delivery η Unit) : Reaction η → Delivery η Unit
  | .fail f => throw f
  | .subscribe signal h => change (.subscribed signal h) (·.subscribe signal h)
  | .cancel signal h => change (.cancelled signal h) (·.cancel signal h)
  | .send signal arguments => send signal arguments
  | .count _ => return ()
  | .attempt first next => do
    let outcome ← ExceptT.lift (react send first).run
    let s ← get
    react send (next outcome s)

/-- Calls a handler. -/
def call (behaviour : Behaviour η) (send : Text → List Value → Delivery η Unit) (arguments : List Value)
    (h : η) : Delivery η Unit :=
  enclose (.called h arguments) (.left h) do
    let s ← get
    (behaviour s.calls).forM (react send)

/-- The failure of handlers that send signals without end. -/
def tooDeep : Failure := .plain .nesting "maximum recursion depth exceeded"

/-- Sends a signal to the handlers that are subscribed now. Handlers that send signals in turn may
do so to the given depth. -/
def send (behaviour : Behaviour η) : Nat → Text → List Value → Delivery η Unit
  | 0, _, _ => throw tooDeep
  | depth + 1, signal, arguments => do
    let s ← get
    match s.emitter.check signal with
    | .error f => throw f
    | .ok () =>
      enclose (.begun signal arguments) .ended
        ((s.emitter.handlersOf signal).forM (call behaviour (send behaviour depth) arguments))

end Delivered

end EventPipeline
