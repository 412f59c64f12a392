import EventPipeline.Connector.Builtin
import EventPipeline.Proofs.Fallible

/-!
# What sinks depend on

A sink is given the host with all that has been printed so far, but what it does must not depend on
that: otherwise a message that somebody prints between two writes could change the second one. A step of
a sink is *oblivious* if it acts as if nothing had been printed. All built-in sinks are
(`oblivious_write_builtin`).

`Recorded` wraps a sink and keeps the list of calls that it got, in order. It changes nothing else, so
that what is known of every sink is known of every recorded one, together with its calls.
-/

namespace EventPipeline

/-- The host as if nothing had been printed. -/
def Host.unprinted (h : Host) : Host := ⟨h.files, [], []⟩

namespace SinkAction

variable {κ κ' α β : Type}

/-- What a step comes to, leaving aside what is printed. -/
def outcome (a : SinkAction κ α) (k : κ) (host : Host) : Except Failure α × κ × FileTree :=
  ((perform a (k, host)).1, (perform a (k, host)).2.1, (perform a (k, host)).2.2.files)

/-- The step acts as if nothing had been printed. -/
def Oblivious (a : SinkAction κ α) : Prop := ∀ k host, outcome a k host = outcome a k host.unprinted

/-- Two hosts with the same files are the same for an oblivious step. -/
theorem Oblivious.congr {a : SinkAction κ α} (h : Oblivious a) (k : κ) {host host' : Host}
    (hf : host.files = host'.files) : outcome a k host = outcome a k host' := by
  rw [h k host, h k host', Host.unprinted, hf, Host.unprinted]

theorem Oblivious.pure (x : α) : Oblivious (pure x : SinkAction κ α) := fun _ _ => rfl

theorem Oblivious.throw (f : Failure) : Oblivious (throw f : SinkAction κ α) := fun _ _ => rfl

/-- A step on the sink alone. -/
theorem Oblivious.modify (g : κ → κ) : Oblivious (modify fun s => (g s.1, s.2) : SinkAction κ PUnit) :=
  fun _ _ => rfl

theorem Oblivious.bind {a : SinkAction κ α} {c : α → SinkAction κ β} (ha : Oblivious a)
    (hc : ∀ x, Oblivious (c x)) : Oblivious (a >>= c) := by
  intro k host
  have h := ha k host
  unfold outcome at h ⊢
  simp only [perform_bind]
  rcases hp : perform a (k, host) with ⟨f | x, k₁, host₁⟩ <;>
    rcases hq : perform a (k, host.unprinted) with ⟨g | y, k₂, host₂⟩ <;>
    simp only [hp, hq, Prod.mk.injEq, Except.error.injEq, Except.ok.injEq, reduceCtorEq, false_and] at h ⊢
  · exact h
  · obtain ⟨rfl, rfl, hf⟩ := h
    simpa only [outcome, Prod.mk.injEq] using (hc x).congr k₁ hf

/-- A step that looks at the sink first. -/
theorem Oblivious.get_bind {c : κ × Host → SinkAction κ β}
    (h : ∀ k host, outcome (c (k, host)) k host = outcome (c (k, host.unprinted)) k host.unprinted) :
    Oblivious (get >>= c) := by
  intro k host
  unfold outcome
  rw [perform_bind_ok (perform_get (k, host)), perform_bind_ok (perform_get (k, host.unprinted))]
  exact h k host

/-- A step on the files leaves the sink as it is and does what it does to the files alone. -/
theorem perform_onFiles (a : FileAction α) (k : κ) (host : Host) :
    perform (onFiles a : SinkAction κ α) (k, host) =
      ((perform a host.files).1, k, { host with files := (perform a host.files).2 }) := by
  unfold onFiles
  rw [perform_bind_ok (perform_get (k, host))]
  rcases h : perform a host.files with ⟨_ | _, files⟩
  all_goals
    unfold perform at h
    simp only [h]
    rfl

theorem outcome_onFiles (a : FileAction α) (k : κ) (host : Host) :
    outcome (onFiles a : SinkAction κ α) k host = ((perform a host.files).1, k, (perform a host.files).2) := by
  rw [outcome, perform_onFiles]

theorem oblivious_onFiles (a : FileAction α) : Oblivious (onFiles a : SinkAction κ α) :=
  fun k host => (outcome_onFiles a k host).trans (outcome_onFiles a k host.unprinted).symm

/-- What comes of a step on a part of the sink. -/
theorem perform_onPart (part : κ') (whole : κ' → κ) (a : SinkAction κ' α) (k : κ) (host : Host) :
    perform (onPart part whole a) (k, host) =
      ((perform a (part, host)).1, whole (perform a (part, host)).2.1, (perform a (part, host)).2.2) := by
  unfold onPart
  rw [perform_bind_ok (perform_get (k, host))]
  rcases hp : perform a (part, host) with ⟨_ | _, t⟩
  all_goals
    unfold perform at hp
    simp only [hp]
    rfl

/-- A step on a part of the sink. -/
theorem Oblivious.onPart {a : SinkAction κ' α} (ha : Oblivious a) (part : κ') (whole : κ' → κ) :
    Oblivious (onPart part whole a) := by
  have h : ∀ k host, outcome (SinkAction.onPart part whole a) k host =
      ((outcome a part host).1, whole (outcome a part host).2.1, (outcome a part host).2.2) := by
    intro k host
    rw [outcome, perform_onPart]
    rfl
  intro k host
  rw [h, h, ha part host]

end SinkAction

open SinkAction (Oblivious)

/-! ### Built-in sinks -/

theorem oblivious_write_memory (v : Value) : Oblivious (Drain.write v : SinkAction MemorySink Unit) :=
  Oblivious.modify fun s : MemorySink => s.keep v

theorem oblivious_write_console (v : Value) : Oblivious (Drain.write v : SinkAction ConsoleSink Unit) :=
  Oblivious.get_bind fun _ _ => rfl

theorem oblivious_write_file (v : Value) : Oblivious (Drain.write v : SinkAction FileSink Unit) := by
  have hopen : Oblivious FileSink.openFile := by
    refine Oblivious.get_bind fun s host => ?_
    dsimp only
    split_ifs
    · rfl
    · exact (SinkAction.oblivious_onFiles _).bind (fun _ => Oblivious.modify fun s : FileSink => { s with opened := true }) s host
  exact hopen.bind fun _ => Oblivious.get_bind fun s host => SinkAction.oblivious_onFiles _ s host

theorem oblivious_write_kafka (v : Value) : Oblivious (Drain.write v : SinkAction KafkaSink Unit) := by
  have hopen : Oblivious KafkaSink.openProducer := by
    refine Oblivious.get_bind fun s host => ?_
    dsimp only
    split_ifs
    · rfl
    · cases s.steps with
      | none => rfl
      | some steps => cases h : (Kafka.startClient steps).1 <;> simp only [h] <;> rfl
  refine hopen.bind fun _ => Oblivious.bind ?_ fun payload => Oblivious.get_bind fun s host => ?_
  · cases Kafka.bytesOf v <;> exact fun _ _ => rfl
  · obtain ⟨topic, options, _ | _ | ⟨step, later⟩, producer, calls⟩ := s
    · rfl
    · rfl
    · cases step <;> rfl

/-- **No built-in sink depends on what has been printed.** -/
theorem oblivious_write_builtin (v : Value) : Oblivious (Drain.write v : SinkAction BuiltinSink Unit) := by
  refine Oblivious.get_bind fun s host => ?_
  cases s with
  | memory s => exact (oblivious_write_memory v).onPart s BuiltinSink.memory (.memory s) host
  | file s => exact (oblivious_write_file v).onPart s BuiltinSink.file (.file s) host
  | console s => exact (oblivious_write_console v).onPart s BuiltinSink.console (.console s) host
  | kafka s => exact (oblivious_write_kafka v).onPart s BuiltinSink.kafka (.kafka s) host

/-! ### Recorded sinks -/

/-- A call to a sink. -/
inductive SinkCall where
  /-- To take a value. -/
  | write (v : Value)
  /-- To take no more. -/
  | close
  deriving DecidableEq

/-- A sink takes a call. -/
def Drain.call {κ : Type} [Drain κ] : SinkCall → SinkAction κ Unit
  | .write v => Drain.write v
  | .close => Drain.close

/-- A sink and its host after calls, whatever came of them. -/
def Drain.afterCalls {κ : Type} [Drain κ] (calls : List SinkCall) (st : κ × Host) : κ × Host :=
  calls.foldl (fun st c => (perform (Drain.call c) st).2) st

/-- The values of the writes that returned, in the order of the calls. -/
def Drain.accepted {κ : Type} [Drain κ] : List SinkCall → κ × Host → List Value
  | [], _ => []
  | .close :: calls, st => Drain.accepted calls (perform (Drain.call .close) st).2
  | .write v :: calls, st =>
    let (r, st) := perform (Drain.call (.write v)) st
    if r.isOk then v :: Drain.accepted calls st else Drain.accepted calls st

/-- A sink together with the calls that it got, oldest first. -/
structure Recorded (κ : Type) where
  /-- The sink. -/
  sink : κ
  /-- The calls. -/
  calls : List SinkCall

namespace Recorded

variable {κ α : Type}

/-- Passes a call on and keeps it, whatever comes of it. -/
def passing (call : SinkCall) (a : SinkAction κ α) : SinkAction (Recorded κ) α := do
  let (r, _) ← get
  SinkAction.onPart r.sink (fun k => ⟨k, r.calls ++ [call]⟩) a

instance [Drain κ] : Drain (Recorded κ) where
  write v := passing (.write v) (Drain.write v)
  close := passing .close Drain.close

theorem oblivious_write [Drain κ] {v : Value} (h : Oblivious (Drain.write v : SinkAction κ Unit)) :
    Oblivious (Drain.write v : SinkAction (Recorded κ) Unit) :=
  Oblivious.get_bind fun r host => h.onPart r.sink _ r host

/-- What comes of a recorded call. -/
theorem perform_passing (call : SinkCall) (a : SinkAction κ α) (r : Recorded κ) (host : Host) :
    perform (passing call a) (r, host) =
      ((perform a (r.sink, host)).1,
        ⟨(perform a (r.sink, host)).2.1, r.calls ++ [call]⟩, (perform a (r.sink, host)).2.2) := by
  unfold passing
  rw [perform_bind_ok (perform_get (r, host))]
  exact SinkAction.perform_onPart r.sink _ a r host

end Recorded

end EventPipeline
