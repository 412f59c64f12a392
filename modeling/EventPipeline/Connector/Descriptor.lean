import EventPipeline.Failure.Basic
import EventPipeline.Text.Blank

/-!
# Descriptors

A connector that is still to be made: at which end of a pipeline it stands, the name of its type and
its configuration.
-/

namespace EventPipeline

/-- The two ends of a pipeline. -/
inductive Role where
  | source | sink
  deriving DecidableEq

/-- The name of an end. -/
def Role.name : Role → Text
  | source => "source"
  | sink => "sink"

/-- A connector by the name of its type, with its configuration. -/
structure Descriptor where
  /-- The name of the type. -/
  type : Text
  /-- The configuration. -/
  config : Fields
  deriving DecidableEq

namespace Descriptor

/-- The descriptor of a type name, which has to be a text with something in it. -/
def ofValues (type : Value) (config : Fields) : Except Failure Descriptor :=
  match type with
  | .text t =>
    if t.isBlank then .error (refuse type) else .ok ⟨t, config⟩
  | v => .error (refuse v)
where
  refuse (v : Value) : Failure :=
    .configuration "connector type must be a non-empty string" [("type", v)] none

/-- The description of a connector. -/
def toValue (d : Descriptor) : Value :=
  .object [("type", d.type), ("config", .object d.config)]

end Descriptor

end EventPipeline
