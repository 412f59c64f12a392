import EventPipeline.Failure.Basic

/-!
# The buffer

All aggregate stages of a pipeline hold their values in one buffer, oldest first. Values leave it
all at once, when a window has been reduced, or from the front, when they are written to disk.
-/

namespace EventPipeline

/-- The held values, oldest first. -/
abbrev Buffer := List Value

namespace Buffer

/-- The buffer with one more value at its end. -/
def push (b : Buffer) (v : Value) : Buffer := b ++ [v]

/-- The oldest value. -/
def front? (b : Buffer) : Option Value := b.head?

/-- The oldest value, or the failure of an empty buffer to have one. -/
def front (b : Buffer) : Except Failure Value :=
  match b.front? with
  | some v => .ok v
  | none => .error (.plain .index "front() on empty ProcessingBuffer")

/-- The oldest values, at most `count` of them. -/
def peekFront (b : Buffer) (count : Int) : List Value := b.take count.toNat

/-- The buffer without its oldest values. -/
def dropFront (b : Buffer) (count : Int) : Buffer := b.drop count.toNat

/-- The buffer with values before all others. -/
def prepend (b : Buffer) (values : List Value) : Buffer := values ++ b

theorem peekFront_append_dropFront (b : Buffer) (count : Int) : b.peekFront count ++ b.dropFront count = b :=
  List.take_append_drop ..

end Buffer

end EventPipeline
