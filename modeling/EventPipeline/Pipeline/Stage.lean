import EventPipeline.Expression.Basic
import EventPipeline.Pipeline.Window

/-!
# Stages

A stage of a pipeline keeps or drops a value, replaces it, or holds it back until a window closes
and then reduces all values held. What a stage computes may fail; it depends on its argument only.
-/

namespace EventPipeline

/-- What kind of stage a stage is. -/
inductive StageKind where
  | filter | transform | aggregate
  deriving DecidableEq

/-- A stage, with the text it was written in. -/
inductive Stage where
  /-- Keeps the values that a predicate accepts. -/
  | filter (accepts : Value → Except Failure Bool) (source : Option Text)
  /-- Replaces every value. -/
  | transform (map : Value → Except Failure Value) (source : Option Text)
  /-- Holds values back and reduces them when the window closes. -/
  | aggregate (window : Window) (reduce : List Value → Except Failure Value) (source : Option Text)

/-- The name of a kind of stage. -/
def StageKind.name : StageKind → Text
  | filter => "filter"
  | transform => "transform"
  | aggregate => "aggregate"

namespace Stage

/-- The kind of a stage. -/
def kind : Stage → StageKind
  | filter .. => .filter
  | transform .. => .transform
  | aggregate .. => .aggregate

/-- The text of a stage. -/
def source : Stage → Option Text
  | filter _ s => s
  | transform _ s => s
  | aggregate _ _ s => s

/-- The window of an aggregate stage. -/
def window? : Stage → Option Window
  | aggregate w _ _ => some w
  | _ => none

/-- The stage keeps the values of which an expression is true. -/
def filterBy (e : Expression) (now : Int) (source : Text) : Stage :=
  .filter (e.holds now) (some source)

/-- The stage replaces a value by that of an expression. -/
def transformBy (e : Expression) (now : Int) (source : Text) : Stage :=
  .transform (e.evaluate now) (some source)

/-- The stage reduces the array of all held values by an expression. -/
def aggregateBy (w : Window) (e : Expression) (now : Int) (source : Text) : Stage :=
  .aggregate w (fun held => e.evaluate now (.array held)) (some source)

/-- The description of a stage. -/
def toValue (s : Stage) : Value :=
  let shared : Fields := [("kind", s.kind.name), ("source", .ofText? s.source)]
  match s.window? with
  | some w => .object (shared ++ [(.name "window", w.toValue)])
  | none => .object shared

/-- The failure of a stage at an index. -/
def failure (index : Nat) (s : Stage) (f : Failure) : Failure :=
  .structured (.processor (some index) (some s.kind.name))
    ("Processor error in " ++ s.kind.name ++ " stage #" ++ Text.ofNat index ++ ": " ++ f.message)
    [("stage_index", .nat index), ("stage_kind", s.kind.name), ("stage_source", .ofText? s.source),
     ("exception_class", f.name)]
    none (some f.asCause)

end Stage

end EventPipeline
