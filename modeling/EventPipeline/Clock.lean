import EventPipeline.Number.Basic

/-!
# Clocks

A clock is the list of readings that it is going to give, in milliseconds. Each reading uses up
one of them, except that the last one is given again and again; a clock without readings stands
still at zero.
-/

namespace EventPipeline

/-- The readings to come. -/
structure Clock where
  /-- The readings, next one first. -/
  readings : List Number
  deriving DecidableEq

namespace Clock

/-- The next reading and the clock after it. -/
def read (c : Clock) : Number × Clock :=
  match c.readings with
  | [] => (.float (Binary64.zero false), c)
  | [last] => (last, c)
  | next :: later => (next, ⟨later⟩)

end Clock

end EventPipeline
