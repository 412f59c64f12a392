import EventPipeline.Proofs.Engine.CountWindow
import EventPipeline.Proofs.Engine.Subscribers
import EventPipeline.Proofs.Engine.Telling
import EventPipeline.Proofs.Pipeline.Fates

/-!
# What is told of one event

While no subscriber fails, an event is told of in three parts: first the failures of the stages, in their order;
then what became of the event (it was written, the sink failed on it, a filter rejected it, or nothing is told); then
the spill, if more is held than there is room for. The sink is given what the chain delivers, and nothing else.

What became of the event is read off the chain (`Chain.delivers_iff`), so that a filter that fails never counts as
one that rejects. A rejected event is told of as it came, whatever transforms in front of the filter made of it.
-/

namespace EventPipeline

variable {σ κ : Type}

namespace Engine

/-- What becomes of an event: a write, a rejection, or nothing. -/
def conclude [Drain κ] (env : Environment σ κ) (event : Value) (o : Outcome) : EngineAction σ κ Unit :=
  match o.delivered? with
  | some v => deliver env v
  | none =>
    if o.filtered then do
      count .filtered 1
      signal env (.filtered event)
    else return ()

/-- After the chain has run: the failures, what becomes of the event, and the spill. -/
theorem afterChain_eq [Drain κ] (env : Environment σ κ) (event : Value) (o : Outcome) :
    afterChain env event o = (do
      o.errors.forM (report env)
      conclude env event o
      checkSpill env) := by
  unfold afterChain conclude
  refine bind_congr fun _ => ?_
  cases o.delivered? with
  | some v => rfl
  | none =>
    dsimp only
    split_ifs
    · rw [bind_assoc]
    · rw [pure_bind]

/-- What is told of a buffer with more values than its capacity allows: how many were spilled, or that they could not
be. Of any other buffer nothing is told. -/
def SpillTold (capacity held : ℕ) (told : Option EngineSignal) : Prop :=
  (held ≤ capacity ∧ told = none) ∨
    (capacity < held ∧ ((∃ path, told = some (.spillover path (held - capacity))) ∨
      ∃ path f, told = some (.error (Spill.writeFailure path (held - capacity) f))))

theorem spillTold_spillIfNeeded (capacity : ℕ) (s : SpillState) :
    SpillTold capacity s.buffer.length (spillSignal? (perform (Spill.spillIfNeeded capacity) s).1) := by
  have hoverflow : (Spill.overflow capacity s).length = s.buffer.length - capacity := by
    rw [Spill.overflow, Buffer.peekFront, List.length_take]
    omega
  rcases Spill.spillIfNeeded_cases capacity s with ⟨hle, h⟩ | ⟨hlt, f, files, -, h⟩ | ⟨hlt, files, -, h⟩
  all_goals rw [h]
  · exact .inl ⟨by omega, rfl⟩
  · rw [hoverflow]
    exact .inr ⟨by omega, .inr ⟨_, f, rfl⟩⟩
  · rw [hoverflow]
    exact .inr ⟨by omega, .inl ⟨_, rfl⟩⟩

/-- The buffer and the definition, which tells its capacity, are the same. -/
def SameRoom (s t : Session σ κ) : Prop :=
  t.engine.buffer = s.engine.buffer ∧ t.world.definition = s.world.definition

instance : IsPreorder (Session σ κ) SameRoom where
  refl _ := ⟨rfl, rfl⟩
  trans _ _ _ h h' := ⟨h'.1.trans h.1, h'.2.trans h.2⟩

theorem Aside.sameRoom {s t : Session σ κ} (h : Aside s t) : SameRoom s t :=
  ⟨congrArg SpillState.buffer h.store_eq, congrArg Core.definition h.core_eq⟩

theorem sameRoom_conclude [Drain κ] (env : Environment σ κ) (event : Value) (o : Outcome) :
    Leads SameRoom (conclude env event o) := by
  unfold conclude
  cases o.delivered? with
  | some v =>
    refine leads_deliver env (fun _ _ => Aside.sameRoom) (fun w s => ?_) v
    rw [perform_onSink]
    cases s.engine.sink <;> exact ⟨rfl, rfl⟩
  | none =>
    refine Leads.mono (fun _ _ => Aside.sameRoom) ?_
    cases o.filtered with
    | true => exact (leads_count _ _).bind fun _ => leads_signal env _
    | false => exact Leads.pure _

section

variable [Drain κ] {env : Environment σ (Recorded κ)} (hq : env.Quiet)

include hq

/-- **What becomes of an event** is told: the value, the failure of the sink, or the event that was rejected. -/
theorem gives_conclude (event : Value) (o : Outcome) (s : Session σ (Recorded κ)) :
    ∃ (last : Option EngineSignal) (t : Session σ (Recorded κ)),
      Gives (conclude env event o) s () (last.toList.map .engine) t ∧
      (∀ v, o.delivered? = some v → last = some (writeSignal v (perform (onSink (Drain.write v)) s).1)) ∧
      (o.delivered? = none → last = if o.filtered then some (.filtered event) else none) ∧
      (s.engine.sink.isSome → Keeps (o.delivered?.toList.map .write) s t) := by
  unfold conclude
  cases o.delivered? with
  | some v =>
    obtain ⟨t, ht, -⟩ := gives_deliver hq v s
    refine ⟨some (writeSignal v (perform (onSink (Drain.write v)) s).1), t, ht, fun w hw => ?_, fun h => (nomatch h),
      fun hsink => ?_⟩
    · cases hw
      rfl
    · have h := keeps_deliver env v hsink
      rwa [ht.result] at h
  | none =>
    cases o.filtered with
    | true =>
      have htells : Tells (do count .filtered 1; signal env (.filtered event)) [.engine (.filtered event)] :=
        (tells_count (by decide) 1).andThen (tells_signal hq _)
      obtain ⟨t, ht⟩ := htells s
      refine ⟨some (.filtered event), t, ht, fun v hv => (nomatch hv), fun _ => rfl, fun _ => ht.leads ?_⟩
      exact (keeps_count _ _).bind fun _ => keeps_signal env _
    | false =>
      exact ⟨none, s, Gives.pure () s, fun v hv => (nomatch hv), fun _ => rfl, fun _ => refl_of (Keeps []) s⟩

end

/-! ### Whole events -/

section

variable (s : Session σ κ) (event : Value) (i : ℕ)

/-- Why a stage of the engine stops what comes to it of an event, if it does. -/
def stopOf? : Option Stop :=
  Chain.stopAt? s.engine.settings.timestampField s.engine.stages event ⟨s.engine.buffer, s.world.clock⟩ i

/-- How a stage of the engine fails on what comes to it of an event, if it does. -/
def failureOf? : Option Failure :=
  Chain.failureAt? s.engine.settings.timestampField s.engine.stages event ⟨s.engine.buffer, s.world.clock⟩ i

/-- The failures of the stages of the engine on an event, in the order of the stages. -/
def failuresOf : List Failure := (List.range s.engine.stages.length).filterMap (failureOf? s event)

theorem chainResult_errors : (chainResult s event).1.errors = failuresOf s event := Chain.errors_run _ _ _ _

variable {s event i}

theorem lt_of_failureOf? {f : Failure} (h : failureOf? s event i = some f) : i < s.engine.stages.length := by
  obtain ⟨stage, hstage, -⟩ := Option.bind_eq_some_iff.1 h
  exact (List.getElem?_eq_some_iff.1 hstage).1

/-- The failures tell of the stages that fail, each once and in their order. -/
theorem exists_indices_failuresOf (s : Session σ κ) (event : Value) :
    ∃ indices : List ℕ, (failuresOf s event).map Failure.stageIndex? = indices.map (fun i => some (i : Int)) ∧
      indices.Pairwise (· < ·) ∧ ∀ i, i ∈ indices ↔ ∃ f, failureOf? s event i = some f := by
  refine ⟨(List.range s.engine.stages.length).filter fun i => (failureOf? s event i).isSome,
    Chain.map_stageIndex? _ _ _ _ _, List.pairwise_lt_range.filter _, fun i => ?_⟩
  rw [List.mem_filter, List.mem_range, Option.isSome_iff_exists]
  exact and_iff_right_of_imp fun ⟨_, h⟩ => lt_of_failureOf? h

/-- Whatever the chain does not deliver was rejected, held back or null. -/
theorem stopped_of_delivers_nothing (h : (chainResult s event).1.delivered? = none) :
    (∃ i, stopOf? s event i = some .rejected) ∨
      event = .null ∨ ∃ i, stopOf? s event i = some .withheld ∨ stopOf? s event i = some .null := by
  rcases (Chain.delivers_iff _ _ _ _).1.1 h with hevent | ⟨c, i, hi⟩
  · exact .inr (.inl hevent)
  · cases c with
    | rejected => exact .inl ⟨i, hi⟩
    | withheld => exact .inr (.inr ⟨i, .inl hi⟩)
    | null => exact .inr (.inr ⟨i, .inr hi⟩)

theorem chainResult_of_rejected (h : stopOf? s event i = some .rejected) :
    (chainResult s event).1.delivered? = none ∧ (chainResult s event).1.filtered = true :=
  ⟨(Chain.delivers_iff _ _ _ _).1.2 (.inr ⟨_, i, h⟩), (Chain.delivers_iff _ _ _ _).2.2 ⟨i, h⟩⟩

/-- An event that is held back or becomes null is not on record as filtered. -/
theorem chainResult_of_silent
    (h : event = .null ∨ ∃ i, stopOf? s event i = some .withheld ∨ stopOf? s event i = some .null) :
    (chainResult s event).1.delivered? = none ∧ (chainResult s event).1.filtered = false := by
  have hrejected : (chainResult s event).1.filtered = false := by
    by_contra hfiltered
    obtain ⟨j, hj⟩ := (Chain.delivers_iff _ _ _ _).2.1 (Bool.not_eq_false _ ▸ hfiltered)
    rcases h with rfl | ⟨i, hi⟩
    · exact nomatch (Chain.stopAt?_null j).symm.trans hj
    · -- One stage would both reject the value and not reject it.
      rcases hi with hi | hi
      all_goals
        obtain rfl := Chain.stopAt?_unique hi hj
        exact nomatch hi.symm.trans hj
  refine ⟨(Chain.delivers_iff _ _ _ _).1.2 ?_, hrejected⟩
  rcases h with hevent | ⟨i, hi | hi⟩
  · exact .inl hevent
  · exact .inr ⟨_, i, hi⟩
  · exact .inr ⟨_, i, hi⟩

end

/-- What was told of an event on the way from one session to another, and what the sink was given: `last` is what is
told of the event itself, and `spill` what is told of the buffer behind it. -/
structure Signalled [Drain κ] (env : Environment σ (Recorded κ)) (s t : Session σ (Recorded κ)) (event : Value)
    (last spill : Option EngineSignal) : Prop where
  /-- The failures are told first, then what became of the event, and then the spill. -/
  told : t.world.notices =
    s.world.notices ++ ((failuresOf s event).map EngineSignal.error ++ last.toList ++ spill.toList).map .engine
  /-- There is one failure for each stage that fails, in the order of the stages, and it tells which one. -/
  indices : ∃ indices : List ℕ,
    (failuresOf s event).map Failure.stageIndex? = indices.map (fun i => some (i : Int)) ∧ indices.Pairwise (· < ·) ∧
      ∀ i, i ∈ indices ↔ ∃ f, failureOf? s event i = some f
  /-- Of a value that is delivered is told what the sink made of it, to which it went behind the reports. -/
  delivered : ∀ v, (chainResult s event).1.delivered? = some v → ∃ u : Session σ (Recorded κ),
    perform ((failuresOf s event).forM (report env)) (withHeld s (chainResult s event).2) = (.ok (), u) ∧
      u.engine.sink = s.engine.sink ∧ u.world.host.files = s.world.host.files ∧
      last = some (writeSignal v (perform (onSink (Drain.write v)) u).1)
  /-- An event that a filter rejects is told of as it came, and nothing is delivered. -/
  rejected : ∀ i, stopOf? s event i = some .rejected →
    last = some (.filtered event) ∧ (chainResult s event).1.delivered? = none
  /-- Nothing is told of an event that is held back or becomes null, and nothing is delivered. -/
  silent : (event = .null ∨ ∃ i, stopOf? s event i = some .withheld ∨ stopOf? s event i = some .null) →
    last = none ∧ (chainResult s event).1.delivered? = none
  /-- Nothing else becomes of an event. -/
  fates : (∃ v, (chainResult s event).1.delivered? = some v) ∨ (∃ i, stopOf? s event i = some .rejected) ∨
    event = .null ∨ ∃ i, stopOf? s event i = some .withheld ∨ stopOf? s event i = some .null
  /-- The sink is given what is delivered, and nothing else. -/
  writes : s.engine.sink.isSome →
    sinkCalls t = sinkCalls s ++ (chainResult s event).1.delivered?.toList.map .write
  /-- What does not fit into the buffer is spilled behind all that, or cannot be. -/
  spilled : SpillTold s.world.definition.capacity (chainResult s event).2.buffer.length spill

/-- **The signals of one event.** The second part says of a filter that fails that it does not reject: the value goes
on as it came to it. -/
theorem process_signals [Drain κ] {env : Environment σ (Recorded κ)} (hq : env.Quiet) (s : Session σ (Recorded κ))
    (event : Value) :
    (∃ last spill t, perform (process env event) s = (.ok (), t) ∧ Signalled env s t event last spill) ∧
    ∀ i accepts source x f, s.engine.stages[i]? = some (.filter accepts source) →
      let before := (Chain.run s.engine.settings.timestampField (s.engine.stages.take i) event).run
        ⟨s.engine.buffer, s.world.clock⟩
      let behind := (Chain.run s.engine.settings.timestampField (s.engine.stages.take (i + 1)) event).run
        ⟨s.engine.buffer, s.world.clock⟩
      before.1.delivered? = some x → accepts x = .error f →
        stopOf? s event i = none ∧ behind.1.delivered? = some x := by
  refine ⟨?_, fun i accepts source x f hs hx hf => Chain.run_failing_filter hs hx hf⟩
  obtain ⟨t, ht⟩ := tells_reports hq (failuresOf s event) (withHeld s (chainResult s event).2)
  have haside : Aside (withHeld s (chainResult s event).2) t := ht.leads (Leads.forM (leads_report env) _)
  have hreports : Keeps [] (withHeld s (chainResult s event).2) t := ht.leads (Leads.forM (keeps_report env) _)
  obtain ⟨last, u, hu, hdelivered, hundelivered, hconclude⟩ := gives_conclude hq event (chainResult s event).1 t
  obtain ⟨v, hv, -⟩ := gives_checkSpill hq u
  have hspill : Keeps [] u v := hv.leads (keeps_checkSpill env)
  have hspilled := spillTold_spillIfNeeded u.world.definition.capacity u.store
  generalize spillSignal? (perform (Spill.spillIfNeeded u.world.definition.capacity) u.store).1 = spill at hv hspilled
  obtain ⟨hbuffer, hdefinition⟩ : SameRoom (withHeld s (chainResult s event).2) u :=
    trans_of SameRoom haside.sameRoom (hu.leads (sameRoom_conclude env _ _))
  have hheld : u.store.buffer = (chainResult s event).2.buffer := hbuffer
  rw [hheld, hdefinition] at hspilled
  have hall : Gives (afterChain env event (chainResult s event).1) (withHeld s (chainResult s event).2) ()
      (((failuresOf s event).map EngineSignal.error ++ last.toList ++ spill.toList).map .engine) v := by
    rw [afterChain_eq, chainResult_errors, List.map_append, List.map_append, List.map_map, List.append_assoc]
    exact ht.bind (hu.bind hv)
  refine ⟨last, spill, v, ?_, ?_⟩
  · rw [perform_process, hall.result]
  refine ⟨hall.told, exists_indices_failuresOf s event, fun w hw => ?_, fun i hi => ?_, fun h => ?_, ?_,
    fun hsink => ?_, hspilled⟩
  · exact ⟨t, ht.result, congrArg Core.sink haside.core_eq, congrArg SpillState.files haside.store_eq,
      hdelivered w hw⟩
  · obtain ⟨hnothing, hfiltered⟩ := chainResult_of_rejected hi
    rw [hundelivered hnothing, hfiltered]
    exact ⟨rfl, hnothing⟩
  · obtain ⟨hnothing, hfiltered⟩ := chainResult_of_silent h
    rw [hundelivered hnothing, hfiltered]
    exact ⟨rfl, hnothing⟩
  · cases h : (chainResult s event).1.delivered? with
    | some w => exact .inl ⟨w, rfl⟩
    | none => exact .inr (stopped_of_delivers_nothing h)
  · have hheld : Keeps [] s (withHeld s (chainResult s event).2) :=
      ⟨rfl, rfl, rfl, rfl, rfl, (List.append_nil _).symm, id⟩
    have hopen : t.engine.sink.isSome := by rwa [(hheld.trans hreports).sink]
    have hcalls := (((hheld.trans hreports).trans (hconclude hopen)).trans hspill).calls
    rwa [List.append_nil, List.nil_append, List.nil_append] at hcalls

/-- A filter that raises on every value. -/
def brokenFilter : Stage := .filter (fun _ => .error (.plain .value "broken")) none

/-- A buffer without room holds a value. Behind a filter that raises come a transform and a filter that rejects. -/
def refusing : Session MemorySource (Recorded MemorySink) where
  engine :=
    { (makingPairs 0).engine with
      stages := [brokenFilter, .transform (fun v => .ok (.array [v])) none, .filter (fun _ => .ok false) none]
      buffer := [.int 1] }
  world := (makingPairs 0).world

/-- The failure is told first, then the event as it came, and then the spill of the value that was held. -/
theorem process_signals_refusing :
    nobody.Quiet ∧
      ∃ last spill t, perform (process nobody (.int 2)) refusing = (.ok (), t) ∧
        Signalled nobody refusing t (.int 2) last spill ∧ last = some (.filtered (.int 2)) ∧ sinkCalls t = [] ∧
        t.world.notices =
          [.engine (.error (brokenFilter.failure 0 (.plain .value "broken"))), .engine (.filtered (.int 2)),
            .engine (.spillover (refusing.engine.spill.directory.child (Spill.fileName 1)) 1)] := by
  have hquiet : nobody.Quiet := fun _ _ => rfl
  have hstopped : stopOf? refusing (.int 2) 2 = some .rejected := by decide +kernel
  have hnotices : (perform (process nobody (.int 2)) refusing).2.world.notices =
      [.engine (.error (brokenFilter.failure 0 (.plain .value "broken"))), .engine (.filtered (.int 2)),
        .engine (.spillover (refusing.engine.spill.directory.child (Spill.fileName 1)) 1)] := by
    decide +kernel
  obtain ⟨last, spill, t, ht, h⟩ := (process_signals hquiet refusing (.int 2)).1
  obtain ⟨hlast, hnothing⟩ := h.rejected 2 hstopped
  refine ⟨hquiet, last, spill, t, ht, h, hlast, ?_, ?_⟩
  · rw [h.writes rfl, hnothing]
    rfl
  · rwa [ht] at hnotices

end Engine

end EventPipeline
