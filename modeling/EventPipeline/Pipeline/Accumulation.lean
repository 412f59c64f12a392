import EventPipeline.Clock
import EventPipeline.Pipeline.Buffer
import EventPipeline.Pipeline.Window

/-!
# Accumulation

An aggregate stage adds its value to the buffer and asks whether its window closes. The number of
held values is tried first. The age of the oldest value is measured against a field of that value,
in milliseconds; the clock is read only if that field is a number. A closing window hands all held
values to the reducer and empties the buffer afterwards, so that a failing reducer loses nothing.
-/

namespace EventPipeline

/-- The held values and the clock that dates them. -/
structure Accumulator where
  /-- The held values. -/
  buffer : Buffer
  /-- The clock. -/
  clock : Clock
  deriving DecidableEq

/-- A step on held values that may fail. -/
abbrev Accumulation (α : Type) := ExceptT Failure (StateM Accumulator) α

namespace Accumulator

/-- The number in a field of the oldest value, if the value is an object and the field a number. -/
def oldestTimestamp? (field : Text) (b : Buffer) : Option Number :=
  match b.front? with
  | some (.object fields) =>
    match Table.find? fields (.name field) with
    | some (.number n) => some n
    | _ => none
  | _ => none

/-- Whether a difference of two times reaches a span. -/
def spanReached (span : Nat) (oldest : Binary64) (reading : Number) : Except Failure Bool :=
  match reading.sub (.float oldest) with
  | .ok age => .ok (Number.lessEq (.int span) age)
  | .error e => .error e.toFailure

/-- Whether a window closes on the held values. -/
def shouldClose (field : Text) (w : Window) : Accumulation Bool := do
  let a ← get
  if w.isFull a.buffer.length then return true
  match w.span, oldestTimestamp? field a.buffer with
  | some span, some stamp =>
    match stamp.toFloat with
    | .error e => throw e.toFailure
    | .ok oldest =>
      let (reading, clock) := a.clock.read
      set { a with clock := clock }
      match spanReached span oldest reading with
      | .ok reached => return reached
      | .error f => throw f
  | _, _ => return false

/-- The reduction of all held values, which leaves the buffer empty. -/
def reduceAll (reduce : List Value → Except Failure Value) : Accumulation Value := do
  let a ← get
  match reduce a.buffer with
  | .error f => throw f
  | .ok v =>
    set { a with buffer := [] }
    return v

/-- Adds a value; gives the reduction if the window closes and nothing if it does not. -/
def accumulate (field : Text) (w : Window) (reduce : List Value → Except Failure Value) (v : Value) :
    Accumulation (Option Value) := do
  modify fun a => { a with buffer := a.buffer.push v }
  if ← shouldClose field w then
    let r ← reduceAll reduce
    return some r
  else return none

/-- The reduction of what is left at the end of the stream, if anything is. -/
def flush (reduce : List Value → Except Failure Value) : Accumulation (Option Value) := do
  let a ← get
  if a.buffer.isEmpty then return none
  let r ← reduceAll reduce
  return some r

end Accumulator

end EventPipeline
