import EventPipeline.Proofs.Engine.Parts
import EventPipeline.Proofs.Engine.Subscribers
import EventPipeline.Proofs.Pipeline.Discarding
import EventPipeline.Proofs.Pipeline.Plain

/-!
# Engines that hold nothing back

If no stage of an engine is an aggregate stage, then nothing ever gets into its buffer, so nothing is spilled either,
and the capacity of the buffer makes no difference (`Indifferent`): not to what the sink gets, not to what the
subscribers are told, not to any failure. Nor does the engine then make a file or a directory: where there was nothing
there is nothing afterwards, unless the sink has put it there.
-/

namespace EventPipeline

variable {σ κ α β : Type}

namespace Chain

/-- Stages that hold nothing back do not touch what is held. -/
theorem runWith_plain {S : Type} (intake : Intake (StateM S)) {stages : List Stage} (hs : ∀ s ∈ stages, s.Plain)
    (i : Nat) (v : Option Value) (s : S) : ((runWith intake i v stages).run s).2 = s := by
  induction stages generalizing i v with
  | nil => rfl
  | cons stage rest ih =>
    have hrest := ih fun s hmem => hs s (List.mem_cons_of_mem _ hmem)
    rcases v with _ | x
    · rfl
    by_cases hx : x = .null
    · rw [hx]
      rfl
    cases stage with
    | filter accepts source =>
      rw [runWith_filter intake hx]
      rcases accepts x with f | _ | _
      · exact hrest _ _
      · rfl
      · exact hrest _ _
    | transform map source =>
      rw [runWith_transform intake hx]
      rcases map x with f | y
      · exact hrest _ _
      · exact hrest _ _
    | aggregate => exact absurd rfl (hs _ List.mem_cons_self)

end Chain

namespace Spill

/-- An empty buffer is within every capacity. -/
theorem perform_spillIfNeeded_nil {s : SpillState} (h : s.buffer = []) (capacity : Nat) :
    perform (spillIfNeeded capacity) s = (.ok Option.none, s) := by
  rw [spillIfNeeded, perform_bind_ok (perform_get s)]
  simp [h]

/-- If nothing is pending, a discard removes at most the directory, and there is nothing new. -/
theorem discardAll_nil {s : SpillState} (h : s.spill.pending = []) :
    ∃ failures files, discardAll.run s = (failures, { s with files := files }) ∧
      ∀ l, s.files.nodeAt? l = Option.none → files.nodeAt? l = Option.none := by
  have hsame : { s.spill with pending := [] } = s.spill := by rw [← h]
  have hpruned := pruned_discardAll s
  have hrun := discardAll_snd s
  rw [hsame] at hrun
  rw [hrun] at hpruned
  refine ⟨_, _, Prod.ext rfl hrun, fun l hl => Option.eq_none_iff_forall_ne_some.2 fun n hn => ?_⟩
  rw [hpruned.node l n hn] at hl
  cases hl

end Spill

/-- There is nothing at a location. -/
def Host.lacks (host : Host) (l : Location) : Prop := host.files.nodeAt? l = none

/-- Where there is nothing at the location, no call of the sink puts anything there. -/
def SinkAvoids (κ : Type) [Drain κ] (l : Location) : Prop :=
  ∀ call : SinkCall, Leads (fun s t : κ × Host => s.2.lacks l → t.2.lacks l) (Drain.call call : SinkAction κ Unit)

namespace Engine

/-- A run through stages that hold nothing back leaves the session as it is. -/
theorem perform_runChain (v : Value) {s : Session σ κ} (hs : ∀ stage ∈ s.engine.stages, stage.Plain) :
    perform (runChain v) s =
      (.ok ((Chain.run s.engine.settings.timestampField s.engine.stages v).run
        ⟨s.engine.buffer, s.world.clock⟩).1, s) := by
  have hsame := Chain.runWith_plain (Chain.bufferIntake s.engine.settings.timestampField) hs 0 (some v)
    ⟨s.engine.buffer, s.world.clock⟩
  rw [runChain, perform_bind_ok (perform_get s), perform_onAccumulator, Chain.run, hsame]

/-- Without held values a flush gives nothing. -/
theorem perform_flush_nil (reduce : List Value → Except Failure Value) {s : Session σ κ} (hs : s.engine.buffer = []) :
    perform (onAccumulator (Accumulator.flush reduce).run) s = (.ok (.ok none), s) := by
  have hflush := Accumulator.perform_flush reduce ⟨s.engine.buffer, s.world.clock⟩
  rw [if_pos hs] at hflush
  unfold perform at hflush
  rw [perform_onAccumulator, hflush]

/-- An empty buffer is not cut back. -/
theorem perform_trim {s : Session σ κ} (hs : s.engine.buffer = []) : perform trim s = (.ok (.ok none), s) := by
  rw [trim, perform_bind_ok (perform_get s), attempt, perform_lift, perform_onSpill,
    Spill.perform_spillIfNeeded_nil (s := s.store) hs]
  rfl

theorem perform_onReload {s : Session σ κ} (hs : s.engine.spill.pending = []) :
    perform (onSpill Spill.reload) s = (.ok none, s) := by
  rw [perform_onSpill, Spill.perform_reload_nil (s := s.store) hs]
  rfl

/-- No stage is an aggregate stage, and nothing is held back. -/
structure Unbuffered (s : Session σ κ) : Prop where
  /-- The stages are filters and transforms. -/
  plain : ∀ stage ∈ s.engine.stages, stage.Plain
  /-- The buffer is empty. -/
  buffer : s.engine.buffer = []
  /-- Nothing is pending. -/
  pending : s.engine.spill.pending = []

/-- Nothing was held back on the way from a session to another one. -/
structure Unspilled [Drain κ] (s t : Session σ κ) : Prop where
  /-- The stages are the same. -/
  stages : t.engine.stages = s.engine.stages
  /-- The buffer is the same. -/
  buffer : t.engine.buffer = s.engine.buffer
  /-- No value was spilled. -/
  spill : t.engine.spill = s.engine.spill
  /-- No name was given to a file. -/
  nextName : t.world.nextName = s.world.nextName
  /-- There is nothing new that the sink did not put there. -/
  files : ∀ l, SinkAvoids κ l → s.world.host.lacks l → t.world.host.lacks l

instance [Drain κ] : IsPreorder (Session σ κ) Unspilled where
  refl _ := ⟨rfl, rfl, rfl, rfl, fun _ _ h => h⟩
  trans _ _ _ h h' := ⟨h'.stages.trans h.stages, h'.buffer.trans h.buffer, h'.spill.trans h.spill,
    h'.nextName.trans h.nextName, fun l hl hs => h'.files l hl (h.files l hl hs)⟩

theorem Unbuffered.unspilled [Drain κ] {s t : Session σ κ} (h : Unbuffered s) (ht : Unspilled s t) : Unbuffered t :=
  ⟨by rw [ht.stages]; exact h.plain, ht.buffer.trans h.buffer, by rw [ht.spill]; exact h.pending⟩

/-- A step that holds nothing back, and to which the capacity makes no difference: with another one it gives the same
and leaves the same behind. -/
def Indifferent [Drain κ] (a : EngineAction σ κ α) : Prop :=
  ∀ s, Unbuffered s → Unspilled s (perform a s).2 ∧
    ∀ n, perform a (s.withCapacity n) = ((perform a s).1, (perform a s).2.withCapacity n)

section

variable [Drain κ]

/-- A step that leaves all this alone, and does not look at the capacity. -/
theorem indifferent_of_eq {a : EngineAction σ κ α} (h : ∀ s, Unbuffered s → Unspilled s (perform a s).2)
    (hn : ∀ n s, perform a (s.withCapacity n) = ((perform a s).1, (perform a s).2.withCapacity n)) : Indifferent a :=
  fun s hs => ⟨h s hs, fun n => hn n s⟩

/-- A step that leaves the session as it is. -/
theorem indifferent_of_same {a : EngineAction σ κ α} (r : Session σ κ → Except Failure α)
    (h : ∀ s, Unbuffered s → perform a s = (r s, s)) (hr : ∀ n s, r (s.withCapacity n) = r s) : Indifferent a := by
  intro s hs
  rw [h s hs]
  refine ⟨refl_of Unspilled s, fun n => ?_⟩
  rw [h (s.withCapacity n) ⟨hs.plain, hs.buffer, hs.pending⟩, hr]

theorem indifferent_bind {a : EngineAction σ κ α} {k : α → EngineAction σ κ β} (ha : Indifferent a)
    (hk : ∀ x, Indifferent (k x)) : Indifferent (a >>= k) := by
  intro s hs
  obtain ⟨hfirst, hn⟩ := ha s hs
  simp only [perform_bind, hn]
  rcases hp : perform a s with ⟨f | x, t⟩
  all_goals rw [hp] at hfirst
  · exact ⟨hfirst, fun _ => rfl⟩
  · obtain ⟨hsecond, hn'⟩ := hk x t (hs.unspilled hfirst)
    exact ⟨trans_of Unspilled hfirst hsecond, hn'⟩

theorem indifferent_onSink (call : SinkCall) : Indifferent (onSink (Drain.call call) : EngineAction σ κ Unit) := by
  refine indifferent_of_eq (fun s _ => ?_) fun n s => ?_
  · rw [perform_onSink]
    cases hk : s.engine.sink with
    | none => exact refl_of Unspilled s
    | some k => exact ⟨rfl, rfl, rfl, rfl, fun l hl => hl call (k, s.world.host)⟩
  · simp only [perform_onSink]
    cases hk : s.engine.sink with
    | none =>
      have : (s.withCapacity n).engine.sink = none := hk
      rw [this]
    | some k =>
      have : (s.withCapacity n).engine.sink = some k := hk
      rw [this]
      rfl

/-- **All small steps are indifferent to the capacity** where nothing is held back. -/
theorem compositional_indifferent (env : Environment σ κ) : Compositional env (fun a => Indifferent a) where
  pure x := indifferent_of_eq (fun s _ => refl_of Unspilled s) fun _ _ => rfl
  throw f := indifferent_of_eq (fun s _ => refl_of Unspilled s) fun _ _ => rfl
  bind := indifferent_bind
  attempt h := by
    intro s hs
    obtain ⟨hstep, hn⟩ := h s hs
    refine ⟨hstep, fun n => ?_⟩
    rw [Engine.attempt, perform_lift, perform_lift, hn]
  look hk h := by
    intro s hs
    obtain ⟨hstep, hn⟩ := h s s hs
    refine ⟨by rw [perform_bind_ok (perform_get s)]; exact hstep, fun n => ?_⟩
    rw [perform_bind_ok (perform_get _), perform_bind_ok (perform_get _), hk, hn]
  change hf := by
    refine indifferent_of_eq (fun s _ => ?_) fun _ _ => rfl
    obtain ⟨hstages, hbuffer, hspill⟩ := hf s.engine
    exact ⟨hstages, hbuffer, hspill, rfl, fun _ _ h => h⟩
  signal sig := by
    refine indifferent_of_eq (fun s _ => ?_) fun n s => ?_
    · rw [Engine.signal, perform_tell]
      exact ⟨rfl, rfl, rfl, rfl, fun _ _ h => h⟩
    · simp only [Engine.signal, perform_tell]
      rfl
  write v := indifferent_onSink (.write v)
  close := indifferent_onSink .close
  runChain v := indifferent_of_same _ (fun _ hs => perform_runChain v hs.plain) fun _ _ => rfl
  flush reduce := indifferent_of_same _ (fun _ hs => perform_flush_nil reduce hs.buffer) fun _ _ => rfl
  trim := indifferent_of_same _ (fun _ hs => perform_trim hs.buffer) fun _ _ => rfl
  reload := indifferent_of_same _ (fun _ hs => perform_onReload hs.pending) fun _ _ => rfl
  discard := by
    intro s hs
    obtain ⟨failures, files, hdiscard, hfiles⟩ := Spill.discardAll_nil (s := s.store) hs.pending
    have hp : perform (ExceptT.lift Spill.discardAll : Spilling _) s.store =
        (.ok failures, { s.store with files := files }) :=
      congrArg (fun r => (Except.ok r.1, r.2)) hdiscard
    rw [perform_onSpill, hp]
    refine ⟨⟨rfl, rfl, rfl, rfl, fun l _ => hfiles l⟩, fun n => ?_⟩
    rw [perform_onSpill, show (s.withCapacity n).store = s.store from rfl, hp]
    rfl

/-! ### Whole runs -/

/-- What comes of an act: the next piece of a start or a stop that is not at its end yet, or a failure. -/
def Act.outcome [Feed σ] (env : Environment σ κ) : Act σ → EngineAction σ κ (Option EngineCall)
  | .start => Engine.start env
  | .stop => Engine.stop env
  | .goOn call => proceed env call
  | a => do a.run env; return none

theorem indifferent_outcome [Feed σ] (env : Environment σ κ) (a : Act σ) : Indifferent (a.outcome env) := by
  have h := compositional_indifferent env
  cases a with
  | start => exact h.start
  | stop => exact h.stop
  | goOn call => exact h.proceed call
  | source f sent => exact h.bind (h.sourceStep f sent) fun _ => h.pure _
  | consume => exact h.bind h.consume fun _ => h.pure _
  | process v => exact h.bind (h.process v) fun _ => h.pure _
  | reload => exact h.bind (h.run .reload) fun _ => h.pure _

/-- **A run is indifferent to the capacity** where nothing is held back. -/
theorem indifferent_afterActs [Feed σ] (env : Environment σ κ) (acts : List (Act σ)) {s : Session σ κ}
    (hs : Unbuffered s) :
    Unspilled s (afterActs env acts s) ∧
      ∀ n, afterActs env acts (s.withCapacity n) = (afterActs env acts s).withCapacity n := by
  induction acts generalizing s with
  | nil => exact ⟨refl_of Unspilled s, fun _ => rfl⟩
  | cons a acts ih =>
    obtain ⟨hact, hn⟩ := (compositional_indifferent env).run a s hs
    obtain ⟨hrest, hn'⟩ := ih (hs.unspilled hact)
    refine ⟨trans_of Unspilled hact hrest, fun n => ?_⟩
    have hfirst : a.after env (s.withCapacity n) = (a.after env s).withCapacity n := congrArg Prod.snd (hn n)
    show afterActs env acts (a.after env (s.withCapacity n)) = _
    rw [hfirst]
    exact hn' n

omit [Drain κ] in
/-- A reload puts nothing back, and says so. -/
theorem perform_reload_nil (env : Environment σ κ) {s : Session σ κ} (hs : s.engine.spill.pending = []) :
    perform (Engine.reload env) s = (.ok false, s) := by
  rw [Engine.reload, attempt, perform_bind_ok (perform_lift _ s), perform_onReload hs]
  rfl

omit [Drain κ] in
/-- A new engine holds nothing. -/
theorem unbuffered_create {stages : List Stage} {working : Text} {config : Fields} {settings : Option Settings}
    {e : Engine σ κ} (h : create stages working config settings = .ok e) (hs : ∀ stage ∈ stages, stage.Plain)
    (w : World) : Unbuffered ⟨e, w⟩ := by
  obtain ⟨-, hstages, -, hbuffer⟩ := idle_create h
  exact ⟨by rwa [hstages], hbuffer, (fresh_create h w).pending⟩

end

end Engine

end EventPipeline
