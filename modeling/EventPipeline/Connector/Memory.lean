import EventPipeline.Connector.Sink
import EventPipeline.Connector.Source

/-!
# Memory connectors

A source that sends the events of its configuration, one after the other, and a sink that keeps
what it takes. The source remembers how far it has come, so a later start goes on from there. A
sink with a limit keeps the latest values.
-/

namespace EventPipeline

/-- A source of given events. -/
structure MemorySource where
  /-- All events. -/
  events : List Value
  /-- How long to rest after each event, in milliseconds. -/
  interval : Value
  /-- How many events have been sent. -/
  index : Nat

/-- A sink that keeps what it takes. -/
structure MemorySink where
  /-- What it keeps, oldest first. -/
  events : List Value
  /-- How much it keeps; null for all. -/
  limit : Value
  /-- It has been closed. -/
  closed : Bool

/-- Whether a rest of so many milliseconds takes time; a value that is no number gives no rest. -/
def restOf (interval : Value) : Except Failure Bool :=
  let seconds (n : Number) : Except Failure Bool :=
    match n.div (.float (Binary64.ofDecimal false 1 3)) with
    | .ok x => .ok (!(Number.lessEq (.float x) (.int 0)))
    | .error e => .error e.toFailure
  match interval with
  | .number n => seconds n
  | .bool b => seconds (.int b.toNat)
  | v => .error (.plain .type ("unsupported operand type(s) for /: " ++ v.tag.quoted ++ " and 'float'"))

/-- Rests and goes on at the head of the loop. -/
def restThen {σ : Type} (interval : Value) (feed : σ) (next : Progress) : Advance σ :=
  match restOf interval with
  | .ok timed => ⟨.pause (.rest timed), feed, next⟩
  | .error f => ⟨.fail f, feed, next⟩

namespace MemorySource

/-- The source of a configuration. -/
def ofConfig (config : Fields) : Except Failure MemorySource :=
  match (config.find? "events").getD (.array []) with
  | .array events => .ok ⟨events, (config.find? "interval_ms").getD (.int 0), 0⟩
  | _ => .error (.plain .type "memory source requires 'events' to be a list")

/-- The next move of the loop. -/
def advance (running : Bool) (p : Progress) (s : MemorySource) : Advance MemorySource :=
  match p with
  | .resting _ => restThen s.interval s .head
  | _ =>
    if running then
      match s.events[s.index]? with
      | some v => ⟨.data v, { s with index := s.index + 1 }, .resting none⟩
      | none => ⟨.finish, s, .head⟩
    else ⟨.leave, s, .head⟩

instance : Feed MemorySource where
  connect s := (.ok (), s)
  advance _ := advance
  disconnect s := (.ok (), s)
  endsOnStop _ _ := false

end MemorySource

namespace MemorySink

/-- A limit is null or a positive integer; true counts as one. -/
def limitOf? : Value → Option Nat
  | .number (.int (.ofNat (n + 1))) => some (n + 1)
  | .bool true => some 1
  | _ => none

/-- The sink of a configuration. -/
def ofConfig (config : Fields) : Except Failure MemorySink :=
  let limit := (config.find? "max_events").getD .null
  if limit.isNull ∨ (limitOf? limit).isSome then .ok ⟨[], limit, false⟩
  else .error (.plain .value "memory sink 'max_events' must be a positive integer")

/-- The sink with one more value, at the cost of the oldest one if there are too many. -/
def keep (s : MemorySink) (v : Value) : MemorySink :=
  let events := s.events ++ [v]
  match limitOf? s.limit with
  | some n => { s with events := if n < events.length then events.tail else events }
  | none => { s with events := events }

instance : Drain MemorySink where
  write v := modify fun (s, host) => (s.keep v, host)
  close := modify fun (s, host) => ({ s with closed := true }, host)

end MemorySink

end EventPipeline
