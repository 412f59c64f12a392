import EventPipeline.Proofs.Engine.Confined

/-!
# What the pieces of an item tell

Which notices a report, a write and a cut of the buffer give while no subscriber fails: a report tells the
failure, a write tells the value or the failure of the sink, and a cut of the buffer tells the file it wrote or
its own failure. Apart from that a report touches nothing, and the other two do what the sink or the spilling
does.
-/

namespace EventPipeline

variable {σ κ α : Type}

namespace Engine

/-- What is told of a write: the value, if the sink took it, or how it failed. -/
def writeSignal (v : Value) : Except Failure Unit → EngineSignal
  | .ok () => .processed v
  | .error f => .error (sinkFailure "Sink error" f)

/-- What is told of an attempt to cut the buffer back. -/
def spillSignal? : Except Failure (Option SpillRecord) → Option EngineSignal
  | .error f => some (.error f)
  | .ok none => none
  | .ok (some r) => some (.spillover r.path r.count)

/-- A step that gives something goes where it leads. -/
theorem Gives.leads {R : Session σ κ → Session σ κ → Prop} {a : EngineAction σ κ α} {s t : Session σ κ} {x : α}
    {ns : List Notice} (h : Gives a s x ns t) (ha : Leads R a) : R s t := by
  have hs := ha s
  rwa [h.result] at hs

/-- Wherever it is made, the step tells the notices and nothing else. -/
def Tells (a : EngineAction σ κ Unit) (ns : List Notice) : Prop := ∀ s, ∃ t, Gives a s () ns t

theorem Tells.pure : Tells (pure () : EngineAction σ κ Unit) [] := fun s => ⟨s, Gives.pure () s⟩

/-- Two steps in a row. -/
theorem Tells.andThen {a b : EngineAction σ κ Unit} {ns ms : List Notice} (ha : Tells a ns) (hb : Tells b ms) :
    Tells (a >>= fun _ => b) (ns ++ ms) := by
  intro s
  obtain ⟨t, ht⟩ := ha s
  obtain ⟨u, hu⟩ := hb t
  exact ⟨u, ht.bind hu⟩

/-! ### Small steps -/

theorem tells_record (stage level message : Text) (extra : Fields) :
    Tells (record stage level message extra : EngineAction σ κ Unit) [] :=
  fun _ => ⟨_, rfl, (List.append_nil _).symm, rfl, rfl, rfl, rfl, rfl⟩

theorem tells_count {c : RunLog.Counter} (h : c ≠ .received) (amount : Nat) :
    Tells (count c amount : EngineAction σ κ Unit) [] :=
  fun s => ⟨_, rfl, (List.append_nil _).symm, rfl, rfl, rfl, rfl, RunLog.counter_count_of_ne s.engine.log h amount⟩

theorem gives_get (s : Session σ κ) : Gives get s s [] s := ⟨rfl, (List.append_nil _).symm, refl_of Within s⟩

/-- A step on the spilled values, whether it fails or not. -/
theorem gives_onSpill (action : Spilling α) (s : Session σ κ) :
    Gives (attempt (onSpill action)) s (perform action s.store).1 [] (withStore s (perform action s.store).2) := by
  refine ⟨?_, (List.append_nil _).symm, rfl, rfl, rfl, rfl, rfl⟩
  rw [attempt, perform_lift, perform_onSpill]

/-- A step of the sink, whether it fails or not. -/
theorem gives_onSink (action : SinkAction κ α) (s : Session σ κ) :
    Gives (attempt (onSink action)) s (perform (onSink action) s).1 [] (perform (onSink action) s).2 := by
  refine ⟨by rw [attempt, perform_lift], ?_, ?_⟩
  · rw [perform_onSink, List.append_nil]
    cases s.engine.sink <;> rfl
  · rw [perform_onSink]
    cases s.engine.sink with
    | none => exact refl_of Within s
    | some k => exact ⟨rfl, rfl, rfl, rfl, rfl⟩

/-! ### Reports, writes and cuts -/

variable {env : Environment σ κ} (hq : env.Quiet)

include hq

theorem tells_signal (n : EngineSignal) : Tells (signal env n) [.engine n] := fun s => ⟨_, gives_tell hq _ s⟩

/-- A report tells the failure. -/
theorem tells_report (f : Failure) : Tells (report env f) [.engine (.error f)] := by
  have hchange : Tells (change fun e => { e with lastError := some f } : EngineAction σ κ Unit) [] :=
    fun _ => ⟨_, rfl, (List.append_nil _).symm, rfl, rfl, rfl, rfl, rfl⟩
  exact hchange.andThen <| (tells_count (by decide) 1).andThen <| (tells_record _ _ _ _).andThen (tells_signal hq _)

/-- Reports tell the failures in their order. -/
theorem tells_reports (fs : List Failure) : Tells (fs.forM (report env)) (fs.map fun f => .engine (.error f)) := by
  induction fs with
  | nil => exact Tells.pure
  | cons f fs ih => exact (tells_report hq f).andThen ih

/-- **A cut of the buffer** tells what the spilling came to, and touches nothing else. -/
theorem gives_checkSpill (s : Session σ κ) :
    ∃ t, Gives (checkSpill env) s ()
        ((spillSignal? (perform (Spill.spillIfNeeded s.world.definition.capacity) s.store).1).toList.map .engine) t ∧
      Aside (withStore s (perform (Spill.spillIfNeeded s.world.definition.capacity) s.store).2) t := by
  have hspill := gives_onSpill (Spill.spillIfNeeded s.world.definition.capacity) s
  generalize withStore s (perform (Spill.spillIfNeeded s.world.definition.capacity) s.store).2 = u at hspill ⊢
  generalize (perform (Spill.spillIfNeeded s.world.definition.capacity) s.store).1 = r at hspill ⊢
  rcases r with f | _ | r
  · obtain ⟨t, ht⟩ := tells_report hq f u
    exact ⟨t, (gives_get s).bind (hspill.bind ht), ht.leads (leads_report env f)⟩
  · exact ⟨u, (gives_get s).bind (hspill.bind (Gives.pure () u)), refl_of Aside u⟩
  · have htells : Tells (do
        count .spilledEvents r.count
        count .spillFiles 1
        record "spillover" "info" "buffer overflow spilled to disk"
          [("path", r.path.text), ("count", .nat r.count), ("sequence_id", .nat r.sequence)]
        signal env (.spillover r.path r.count)) [.engine (.spillover r.path r.count)] :=
      (tells_count (by decide) _).andThen <| (tells_count (by decide) _).andThen <|
        (tells_record _ _ _ _).andThen (tells_signal hq _)
    obtain ⟨t, ht⟩ := htells u
    refine ⟨t, (gives_get s).bind (hspill.bind ht), ht.leads ?_⟩
    refine (leads_count _ _).bind fun _ => (leads_count _ _).bind fun _ => ?_
    exact (leads_record _ _ _ _).bind fun _ => leads_signal env _

variable [Drain κ]

/-- **A write** tells what the sink made of it, and touches nothing else. -/
theorem gives_deliver (v : Value) (s : Session σ κ) :
    ∃ t, Gives (deliver env v) s () [.engine (writeSignal v (perform (onSink (Drain.write v)) s).1)] t ∧
      Aside (perform (onSink (Drain.write v)) s).2 t := by
  have hwrite : Gives (attempt (onSink (Drain.write v))) s _ [] _ := gives_onSink (Drain.write v) s
  generalize (perform (onSink (Drain.write v)) s).2 = u at hwrite ⊢
  generalize (perform (onSink (Drain.write v)) s).1 = r at hwrite ⊢
  rcases r with f | _
  · obtain ⟨t, ht⟩ := tells_report hq (sinkFailure "Sink error" f) u
    exact ⟨t, hwrite.bind ht, ht.leads (leads_report env _)⟩
  · have htells : Tells (do
        count .processed 1
        signal env (.processed v)) [.engine (.processed v)] :=
      (tells_count (by decide) 1).andThen (tells_signal hq _)
    obtain ⟨t, ht⟩ := htells u
    exact ⟨t, hwrite.bind ht, ht.leads ((leads_count _ _).bind fun _ => leads_signal env _)⟩

end Engine

end EventPipeline
