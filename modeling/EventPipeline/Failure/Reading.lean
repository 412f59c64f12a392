import EventPipeline.Failure.Basic
import EventPipeline.Json.Reader

/-!
# Failures to read JSON

What is wrong with a JSON text, as a failure.
-/

namespace EventPipeline

/-- The failure of a text that is no JSON. -/
def Json.Error.toFailure (e : Json.Error) : Failure := .plain .json e.message

/-- The value of a JSON text, or the failure to read it. -/
def Json.readOrFail (t : Text) : Except Failure Value := (Json.read t).mapError Json.Error.toFailure

end EventPipeline
