import EventPipeline.Value.Basic

/-!
# Clients

Connectors to remote services act through a client. What a connector asks of its client is a list
of calls. A client may be missing altogether; then whoever needs it fails.
-/

namespace EventPipeline

/-- A call to a client. -/
inductive ClientCall where
  /-- A request to a server. -/
  | request (method url : Text)
  /-- The end of a session of requests. -/
  | closeSession
  /-- A new consumer of a topic. -/
  | openConsumer (topic : Text) (options : Fields)
  /-- A new producer. -/
  | openProducer (options : Fields)
  /-- The start of a consumer or producer. -/
  | start
  /-- The stop of a consumer or producer. -/
  | stop
  /-- A message for a topic. -/
  | send (topic : Text) (payload : List UInt8)
  deriving DecidableEq

end EventPipeline
