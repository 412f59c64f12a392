import EventPipeline.Failure.Basic

/-!
# Windows

A window says when the values that an aggregate stage holds back are reduced: once there are
`count` of them, once the oldest is `span` milliseconds old, or only at the end of the stream.
-/

namespace EventPipeline

/-- When held values are reduced. -/
structure Window where
  /-- The number of values that close the window. -/
  count : Option Nat
  /-- The age of the oldest value that closes the window, in milliseconds. -/
  span : Option Nat
  deriving DecidableEq

namespace Window

/-- The name of the first field. -/
def countKey : Text := "count"

/-- The name of the second field. -/
def spanKey : Text := "time_window_ms"

/-- A field of a window: null, or a positive integer. -/
def bound (key : Text) (v : Value) : Except Failure (Option Nat) :=
  match v with
  | .null => .ok none
  | .number (.int (.ofNat (n + 1))) => .ok (some (n + 1))
  | v => .error (.configuration ("WindowSpec." ++ key ++ " must be a positive integer") [(.name key, v)] none)

/-- The window of two field values. -/
def ofValues (count span : Value) : Except Failure Window := do
  let c ← bound countKey count
  let s ← bound spanKey span
  return ⟨c, s⟩

/-- So many held values close the window by their number. -/
def isFull (w : Window) (held : Nat) : Bool :=
  match w.count with
  | some n => n ≤ held
  | none => false

/-- A bound as a value, null if there is none. -/
def boundValue : Option Nat → Value
  | some n => .nat n
  | none => .null

/-- The window as a value. -/
def toValue (w : Window) : Value :=
  .object [(.name countKey, boundValue w.count), (.name spanKey, boundValue w.span)]

end Window

end EventPipeline
