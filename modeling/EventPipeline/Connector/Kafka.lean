import EventPipeline.Connector.Client
import EventPipeline.Connector.Descriptor
import EventPipeline.Connector.Memory
import EventPipeline.Failure.Reading
import EventPipeline.Json.Printer
import EventPipeline.Text.Casing
import EventPipeline.Value.Quoted

/-!
# Kafka connectors

A source that consumes the messages of a topic and a sink that sends messages to one.

A message with a JSON text is an event, and an object gets one more field, which tells where the
message came from; a text that is no JSON is an event as it stands; a message without a value is
passed over. On the way out that field is left off again. A stopped source announces the end.
-/

namespace EventPipeline

/-- What a message carries. -/
inductive Payload where
  /-- Bytes. -/
  | bytes (b : List UInt8)
  /-- A value that a client has decoded already; null if there is none. -/
  | value (v : Value)
  deriving DecidableEq

/-- A message of a topic. -/
structure KafkaMessage where
  /-- What it carries. -/
  payload : Payload
  /-- Where it came from. -/
  origin : Fields
  deriving DecidableEq

/-- What becomes of the attempt to consume or to send a message. -/
inductive KafkaStep where
  /-- A message came. -/
  | message (m : KafkaMessage)
  /-- A message was accepted. -/
  | accept
  /-- The attempt fails, for a reason. -/
  | broken (words : Text)
  /-- The start of the next client fails, for a reason. -/
  | startBroken (words : Text)
  deriving DecidableEq

/-- A source that consumes a topic. -/
structure KafkaSource where
  /-- The topic. -/
  topic : Text
  /-- Options of the client. -/
  options : Fields
  /-- What is to come; nothing if there is no client. -/
  steps : Option (List KafkaStep)
  /-- A consumer is open. -/
  consumer : Bool
  /-- The calls to the client. -/
  calls : List ClientCall

/-- A sink that sends to a topic. -/
structure KafkaSink where
  /-- The topic. -/
  topic : Text
  /-- Options of the client. -/
  options : Fields
  /-- What is to come; nothing if there is no client. -/
  steps : Option (List KafkaStep)
  /-- A producer is open. -/
  producer : Bool
  /-- The calls to the client. -/
  calls : List ClientCall

namespace Kafka

/-- The field that tells where a message came from. -/
def originField : Key := .name "_kafka"

/-- The text of a payload, unless there is none. -/
def Payload.text? : Payload → Option Text
  | .bytes b => some (Text.decode b)
  | .value .null => none
  | .value v => some v.shown

/-- The event of a message; null if there is none. -/
def eventOf (m : KafkaMessage) : Value :=
  match Payload.text? m.payload with
  | none => .null
  | some t =>
    match Json.read t with
    | .ok (.object fields) => .object (Table.set fields originField (.object m.origin))
    | .ok v => v
    | .error _ => .text t

/-- The text of the message for an event. -/
def textOf : Value → Text
  | .text t => t
  | .object fields => Json.write .spaced (.object (Table.erase fields originField))
  | v => Json.write .spaced v

/-- The bytes of the message for an event. -/
def bytesOf (event : Value) : Except Failure (List UInt8) :=
  (Text.encode (textOf event)).mapError Text.UnencodableRun.toFailure

/-! ### Configurations -/

/-- A refused configuration. -/
def refuse (role : Role) (words : Text) : Failure :=
  .plain .value ("Kafka " ++ role.name ++ " " ++ words)

/-- The brokers in a configuration: a list, or a text with commas between them. -/
def brokersOf (role : Role) (config : Fields) : Except Failure (List Text) :=
  let listed : List Value := match config.find? "brokers" with
    | some (.array items) => items
    | some (.text t) =>
      (((t.splitOn (· == .char ',')).map Text.strip).filter (· ≠ [])).map Value.text
    | _ => []
  match listed with
  | [] => .error (refuse role "requires brokers configuration")
  | items => .ok (items.map Value.shown)

/-- The topic in a configuration. -/
def topicOf (role : Role) (config : Fields) : Except Failure Text :=
  match config.find? "topic" with
  | some (.text t) => if t.isBlank then .error noTopic else .ok t
  | _ => .error noTopic
where
  noTopic : Failure := refuse role "requires a topic configuration"

/-- The options of security in a configuration. -/
def securityOf (role : Role) (config : Fields) : Except Failure Fields :=
  let encrypted := ((config.find? "ssl").getD .null).isFilled
  let login := (config.find? "sasl").getD .null
  if login.isFilled then
    match login with
    | .object fields => .ok
        [("security_protocol", .text (if encrypted then "SASL_SSL" else "SASL_PLAINTEXT")),
         ("sasl_mechanism", .text ((Table.find? fields (.name "mechanism")).getD (.text "PLAIN")).shown.upper),
         ("sasl_plain_username", (Table.find? fields (.name "username")).getD .null),
         ("sasl_plain_password", (Table.find? fields (.name "password")).getD .null)]
    | _ => .error (refuse role "'sasl' must be an object")
  else if encrypted then .ok [("security_protocol", .text "SSL")]
  else .ok []

/-- The options that both ends share. -/
def optionsOf (role : Role) (clientId : Text) (config : Fields) : Except Failure Fields := do
  let brokers ← brokersOf role config
  let security ← securityOf role config
  let client : Fields :=
    [("bootstrap_servers", .array (brokers.map Value.text)),
     ("client_id", .text ((config.find? "clientId").getD (.text clientId)).shown)]
  return client ++ security

/-- The compression in a configuration. -/
def compressionOf (config : Fields) : Value :=
  match (config.find? "compression").getD (.text "gzip") with
  | .null => .null
  | v => if v = .text "none" then .null else .text v.shown.lower

/-- The acknowledgements in a configuration; minus one stands for all. -/
def acknowledgementsOf (config : Fields) : Value :=
  match (config.find? "acks").getD (.int 1) with
  | .number n => if Number.equals n (.int (-1)) then .text "all" else .number n
  | v => v

/-- The failure of a connector without a client. -/
def noClient : Failure :=
  .plain .runtime "Kafka connectors require aiokafka (pip install 'streamsynth[kafka]')"

/-- The start of a client: what comes of it, and the steps that are left. -/
def startClient : List KafkaStep → Except Failure Unit × List KafkaStep
  | .startBroken words :: later => (.error (.plain .runtime words), later)
  | steps => (.ok (), steps)

end Kafka

namespace KafkaSource

/-- The source of a configuration. -/
def ofConfig (config : Fields) : Except Failure KafkaSource := do
  let shared ← Kafka.optionsOf .source "streamsynth-consumer" config
  let first := ((config.find? "fromBeginning").getD .null).isFilled
  let group : Fields :=
    [("group_id", .text ((config.find? "groupId").getD (.text "streamsynth-group")).shown),
     ("auto_offset_reset", .text (if first then "earliest" else "latest"))]
  let topic ← Kafka.topicOf .source config
  return ⟨topic, shared ++ group, none, false, []⟩

/-- The failure to consume a message. -/
def consumeFailure (s : KafkaSource) (words : Text) : Failure :=
  .structured (.source (some "kafka")) ("Kafka consume failed: " ++ words)
    [("topic", s.topic), ("exception_class", Fault.connection.name)] none none

/-- The next move of the loop. -/
def advance (running : Bool) (p : Progress) (s : KafkaSource) : Advance KafkaSource :=
  match p with
  | .resting _ => ⟨.pause (.rest false), s, .head⟩
  | .asked =>
    match s.steps with
    | none | some [] => ⟨.wait, s, .asked⟩
    | some (.message m :: later) =>
      let s := { s with steps := some later }
      match Kafka.eventOf m with
      | .null => ⟨.skip, s, .head⟩
      | v => ⟨.data v, s, .head⟩
    | some (.broken words :: later) =>
      ⟨.error (s.consumeFailure words), { s with steps := some later }, .resting none⟩
    | some (_ :: later) => ⟨.skip, { s with steps := some later }, .head⟩
  | _ => if running then ⟨.pause .answer, s, .asked⟩ else ⟨.leave, s, .head⟩

/-- Opens a consumer and starts it. -/
def openConsumer (s : KafkaSource) : Except Failure Unit × KafkaSource :=
  match s.steps with
  | none => (.error Kafka.noClient, s)
  | some steps =>
    let (r, later) := Kafka.startClient steps
    (r, { s with
      steps := some later
      consumer := s.consumer || r.isOk
      calls := s.calls ++ [.openConsumer s.topic s.options, .start] })

/-- Stops the consumer if one is open. -/
def closeConsumer (s : KafkaSource) : KafkaSource :=
  if s.consumer then { s with consumer := false, calls := s.calls ++ [.stop] } else s

instance : Feed KafkaSource where
  connect := openConsumer
  advance _ := advance
  disconnect s := (.ok (), s.closeConsumer)
  endsOnStop running s := running || s.consumer

end KafkaSource

namespace KafkaSink

/-- The sink of a configuration. -/
def ofConfig (config : Fields) : Except Failure KafkaSink := do
  let shared ← Kafka.optionsOf .sink "streamsynth-producer" config
  let delivery : Fields :=
    [("compression_type", Kafka.compressionOf config), ("acks", Kafka.acknowledgementsOf config)]
  let topic ← Kafka.topicOf .sink config
  return ⟨topic, shared ++ delivery, none, false, []⟩

/-- Opens a producer and starts it, unless one is open. -/
def openProducer : SinkAction KafkaSink Unit := do
  let (s, host) ← get
  if s.producer then return ()
  match s.steps with
  | none => throw Kafka.noClient
  | some steps =>
    let (r, later) := Kafka.startClient steps
    let opened : KafkaSink := { s with
      steps := some later
      producer := r.isOk
      calls := s.calls ++ [.openProducer s.options, .start] }
    set (opened, host)
    match r with
    | .ok () => return ()
    | .error f => throw f

/-- Sends the message of an event. -/
def write (v : Value) : SinkAction KafkaSink Unit := do
  openProducer
  let payload ← Kafka.bytesOf v
  let (s, host) ← get
  let s : KafkaSink := { s with calls := s.calls ++ [.send s.topic payload] }
  match s.steps with
  | some (step :: later) =>
    let served : KafkaSink := { s with steps := some later }
    set (served, host)
    match step with
    | .broken words => throw (.plain .connection words)
    | _ => return ()
  | _ => set (s, host)

/-- Stops the producer if one is open. -/
def closeProducer (s : KafkaSink) : KafkaSink :=
  if s.producer then { s with producer := false, calls := s.calls ++ [.stop] } else s

instance : Drain KafkaSink where
  write := write
  close := modify fun (s, host) => (s.closeProducer, host)

end KafkaSink

end EventPipeline
