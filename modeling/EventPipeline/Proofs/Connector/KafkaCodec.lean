import EventPipeline.Connector.Kafka
import EventPipeline.Proofs.Json.Canonical
import EventPipeline.Proofs.Json.Length
import EventPipeline.Proofs.Json.Symbols
import EventPipeline.Proofs.Text.Utf8

/-!
# An event through a topic

What a source makes of the message that a sink has sent for an event (`Kafka.eventOf_bytesOf`). The two
sides are not mirror images: a text travels as it stands and everything else as JSON; the field that tells
where a message came from is left off by the sink and put on by the source. So an object comes back with
that field replaced, other values come back as they are, and a text comes back as it is only if it is no
JSON. A text that is JSON turns into what it denotes, and that is never the text itself: a JSON text is
longer than the text that it denotes (`Json.length_lt_of_read`).
-/

namespace EventPipeline

namespace Kafka

/-! ### Fields -/

/-- Without a field, an object can still be told from its text. -/
theorem haveJson_erase {fields : Fields} (h : Value.haveJson fields = true) (key : Key) :
    Value.haveJson (Table.erase fields key) = true := by
  obtain ⟨hd, hfs⟩ := Value.haveJson_iff.1 h
  rw [Value.haveJson_iff]
  constructor
  · exact hd.sublist (List.filter_sublist.map _)
  · intro f hf
    exact hfs f (List.mem_of_mem_filter hf)

theorem notMem_keys_erase (fields : Fields) (key : Key) : key ∉ Table.keys (Table.erase fields key) := by
  simp [Table.keys, Table.erase]

/-- Without a field, an object has no further symbols. -/
theorem symbolsOfFields_erase {fields : Fields} {key : Key} {s : Symbol}
    (h : s ∈ Value.symbolsOfFields (Table.erase fields key)) : s ∈ Value.symbolsOfFields fields := by
  rw [Value.mem_symbolsOfFields] at h ⊢
  obtain ⟨f, hf, hs⟩ := h
  exact ⟨f, List.mem_of_mem_filter hf, hs⟩

/-! ### The sink -/

/-- The text of the message for an event is drawn from the texts of the event. -/
theorem isEncodable_textOf {event : Value} (h : event.symbols.isEncodable = true) :
    (textOf event).isEncodable = true := by
  cases event with
  | text s => exact h
  | object fields =>
    have hdrawn := Json.drawn_write (.object (Table.erase fields originField))
    exact (hdrawn.mono fun s hs => symbolsOfFields_erase hs).isEncodable h
  | _ => exact (Json.drawn_write _).isEncodable h

/-- An event without lone surrogates has a message, and its text arrives. -/
theorem bytesOf_eq_ok {event : Value} (h : event.symbols.isEncodable = true) :
    ∃ bytes, bytesOf event = .ok bytes ∧ Payload.text? (.bytes bytes) = some (textOf event) := by
  have hok := Text.encode_eq_ok (isEncodable_textOf h)
  refine ⟨_, by rw [bytesOf, hok]; rfl, ?_⟩
  exact congrArg some (Text.decode_encode hok)

/-! ### The source -/

/-- What a source makes of a JSON value: an object is told where it came from. -/
def received (origin : Fields) : Value → Value
  | .object fields => .object (Table.set fields originField (.object origin))
  | v => v

theorem received_ne_text {origin : Fields} {v : Value} {s : Text} (h : v ≠ .text s) : received origin v ≠ .text s := by
  cases v with
  | object fields => exact Value.noConfusion
  | _ => exact h

variable {m : KafkaMessage} {t : Text}

/-- A message with a JSON text. -/
theorem eventOf_of_read (ht : Payload.text? m.payload = some t) {v : Value} (h : Json.read t = .ok v) :
    eventOf m = received m.origin v := by
  rw [eventOf, ht]
  cases v <;> simp [h, received]

/-- A message with another text. -/
theorem eventOf_of_refusal (ht : Payload.text? m.payload = some t) {e : Json.Error} (h : Json.read t = .error e) :
    eventOf m = .text t := by
  rw [eventOf, ht]
  simp [h]

/-- A message with a text is that text exactly if the text is no JSON. -/
theorem eventOf_eq_text_iff (ht : Payload.text? m.payload = some t) :
    eventOf m = .text t ↔ ∃ e, Json.read t = .error e := by
  constructor
  · intro hm
    cases h : Json.read t with
    | error e => exact ⟨e, rfl⟩
    | ok v =>
      rw [eventOf_of_read ht h] at hm
      refine absurd hm (received_ne_text ?_)
      rintro rfl
      exact Nat.lt_irrefl _ (Json.length_lt_of_read h)
  · rintro ⟨e, h⟩
    exact eventOf_of_refusal ht h

/-- A source takes the message from its consumer and sends nothing. -/
def PassedOver (m : KafkaMessage) : Prop :=
  ∀ (running : Bool) (source : KafkaSource) (later : List KafkaStep), source.steps = some (.message m :: later) →
    source.advance running .asked = ⟨.skip, { source with steps := some later }, .head⟩

/-- A message is passed over if it has no event. -/
theorem passedOver_of_null (h : eventOf m = .null) : PassedOver m := by
  intro running source later hsteps
  rw [KafkaSource.advance, hsteps]
  simp [h]

/-! ### Both -/

/-- Where a message stands. -/
structure Envelope where
  /-- The topic. -/
  topic : Value
  /-- The partition of the topic. -/
  partition : Value
  /-- The place in the partition. -/
  offset : Value
  /-- The time of the message. -/
  timestamp : Value

/-- What a source tells of where a message stands. -/
def Envelope.metadata (e : Envelope) : Fields :=
  [("topic", e.topic), ("partition", e.partition), ("offset", e.offset), ("timestamp", e.timestamp)]

/-- **What comes of an event on its way through a topic.** The event has distinct names in each object and
no lone surrogates, so that it has a message. -/
theorem eventOf_bytesOf {event : Value} (hj : event.isJson = true) (hs : event.symbols.isEncodable = true)
    (envelope : Envelope) :
    ∃ bytes, bytesOf event = .ok bytes ∧
      let arrived : KafkaMessage := ⟨.bytes bytes, envelope.metadata⟩
      match event with
      | .object fields => eventOf arrived =
          .object (Table.erase fields originField ++ [(originField, .object envelope.metadata)])
      | .null => eventOf arrived = .null ∧ PassedOver arrived ∧ PassedOver ⟨.value .null, envelope.metadata⟩
      | .text s => (eventOf arrived = .text s ↔ ∃ e, Json.read s = .error e) ∧
          ∀ v, Json.read s = .ok v → eventOf arrived = received envelope.metadata v ∧ eventOf arrived ≠ .text s
      | v => eventOf arrived = v := by
  obtain ⟨bytes, hbytes, ht⟩ := bytesOf_eq_ok hs
  refine ⟨bytes, hbytes, ?_⟩
  have hread : ∀ v, v.isJson = true → Json.read (Json.write .spaced v) = .ok v := fun v =>
    Json.read_write Json.legible_spaced
  cases event with
  | object fields =>
    have hj : (Value.object (Table.erase fields originField)).isJson = true := haveJson_erase hj originField
    have hm := eventOf_of_read (m := ⟨.bytes bytes, envelope.metadata⟩) ht (hread _ hj)
    rw [received, Table.set_of_notMem (notMem_keys_erase fields originField)] at hm
    exact hm
  | null =>
    have hm := eventOf_of_read (m := ⟨.bytes bytes, envelope.metadata⟩) ht (hread .null rfl)
    exact ⟨hm, passedOver_of_null hm, passedOver_of_null rfl⟩
  | text s =>
    have hiff : eventOf ⟨.bytes bytes, envelope.metadata⟩ = .text s ↔ ∃ e, Json.read s = .error e :=
      eventOf_eq_text_iff ht
    refine ⟨hiff, fun v h => ⟨eventOf_of_read ht h, fun hm => ?_⟩⟩
    obtain ⟨e, he⟩ := hiff.1 hm
    rw [h] at he
    cases he
  | _ => exact eventOf_of_read (m := ⟨.bytes bytes, envelope.metadata⟩) ht (hread _ hj)

/-- An object that tells of an earlier message, on the way through another topic. -/
theorem eventOf_bytesOf_nested :
    let event : Value := .object [("_kafka", .int 7), ("é", .object [("_kafka", .null)]), ("a", .array [.text "_kafka"])]
    let envelope : Envelope := ⟨.text "t", .int 1, .int 42, .null⟩
    (event.isJson = true ∧ event.symbols.isEncodable = true) ∧ ∃ bytes, bytesOf event = .ok bytes ∧
      eventOf ⟨.bytes bytes, envelope.metadata⟩ = .object [("é", .object [("_kafka", .null)]),
        ("a", .array [.text "_kafka"]), ("_kafka", .object envelope.metadata)] := by
  intro event envelope
  have hj : event.isJson = true := by decide
  have hs : event.symbols.isEncodable = true := by decide
  exact ⟨⟨hj, hs⟩, eventOf_bytesOf hj hs envelope⟩

end Kafka

end EventPipeline
