import EventPipeline.Proofs.Engine.Books
import EventPipeline.Proofs.Engine.CountWindow
import EventPipeline.Proofs.Engine.Finality

/-!
# How far a failing subscriber reaches

A subscriber that fails cuts short the step that told it something, and what the step had still to do is left
undone. This module says what the steps of an engine do nevertheless.

* Whatever the subscribers do, the consumer keeps its place in the queue while it handles an item (`Keeps`), and the
  source and the caller only put items there (`Joins`).
* If no subscriber fails on errors, every piece of an item comes to its end: either another write is due, or the
  consumer goes back to the queue (`take_step`, `write_step`). What is done then depends on which other notices the
  subscribers bear (`Done`).
-/

namespace EventPipeline

variable {σ κ α β : Type}

/-- No subscriber fails on a notice of a kind. -/
def Environment.QuietOn (env : Environment σ κ) (kind : Notice → Bool) : Prop :=
  ∀ told n, kind n = true → (env.subscriber told n).failure = none

namespace Engine

/-! ### What is told -/

/-- Whatever is told has been told, also if a subscriber fails on it. -/
theorem perform_tell (env : Environment σ κ) (n : Notice) (s : Session σ κ) :
    perform (tell env n) s =
      ((env.subscriber s.world.notices n).failure.elim (.ok ()) .error, withTold env n s) := by
  rw [tell, perform_bind_ok (perform_get s), perform_bind_ok (perform_set _ s)]
  cases (env.subscriber s.world.notices n).failure <;> rfl

theorem perform_tell_of_quietOn {env : Environment σ κ} {kind : Notice → Bool} (h : env.QuietOn kind) {n : Notice}
    (hn : kind n = true) (s : Session σ κ) : perform (tell env n) s = (.ok (), withTold env n s) := by
  rw [perform_tell, h _ _ hn]
  rfl

/-! ### What the handling of items keeps -/

/-- What the handling of items keeps, whatever the subscribers do, while the sink gets calls. -/
structure Keeps (calls : List SinkCall) (s t : Session σ (Recorded κ)) : Prop where
  /-- The queue is the same. -/
  queue : t.engine.queue = s.engine.queue
  /-- The consumer is the same. -/
  consumer : t.engine.consumer = s.engine.consumer
  /-- The stages are the same. -/
  stages : t.engine.stages = s.engine.stages
  /-- The definition is the same. -/
  definition : t.world.definition = s.world.definition
  /-- There is a sink still. -/
  sink : t.engine.sink.isSome = s.engine.sink.isSome
  /-- The sink got the calls. -/
  calls : sinkCalls t = sinkCalls s ++ calls
  /-- The end of the stream stays announced. -/
  ended : s.engine.ended = some true → t.engine.ended = some true

theorem Keeps.trans {xs ys : List SinkCall} {s t u : Session σ (Recorded κ)} (h : Keeps xs s t) (h' : Keeps ys t u) :
    Keeps (xs ++ ys) s u where
  queue := h'.queue.trans h.queue
  consumer := h'.consumer.trans h.consumer
  stages := h'.stages.trans h.stages
  definition := h'.definition.trans h.definition
  sink := h'.sink.trans h.sink
  calls := by rw [h'.calls, h.calls, List.append_assoc]
  ended he := h'.ended (h.ended he)

instance : IsPreorder (Session σ (Recorded κ)) (Keeps []) where
  refl _ := ⟨rfl, rfl, rfl, rfl, rfl, (List.append_nil _).symm, id⟩
  trans _ _ _ h h' := h.trans h'

theorem keeps_change {f : Engine σ (Recorded κ) → Engine σ (Recorded κ)}
    (h : ∀ e, (f e).queue = e.queue ∧ (f e).consumer = e.consumer ∧ (f e).stages = e.stages ∧ (f e).sink = e.sink ∧
      (e.ended = some true → (f e).ended = some true)) : Leads (Keeps []) (change f) := by
  refine Leads.modify fun s => ?_
  obtain ⟨hqueue, hconsumer, hstages, hsink, hended⟩ := h s.engine
  refine ⟨hqueue, hconsumer, hstages, rfl, congrArg Option.isSome hsink, ?_, hended⟩
  simp [sinkCalls, hsink]

theorem keeps_record (stage level message : Text) (extra : Fields) :
    Leads (Keeps []) (record stage level message extra : EngineAction σ (Recorded κ) Unit) :=
  keeps_change fun _ => ⟨rfl, rfl, rfl, rfl, id⟩

theorem keeps_count (c : RunLog.Counter) (amount : Nat) :
    Leads (Keeps []) (count c amount : EngineAction σ (Recorded κ) Unit) :=
  keeps_change fun _ => ⟨rfl, rfl, rfl, rfl, id⟩

theorem keeps_onAccumulator (action : StateM Accumulator α) :
    Leads (Keeps []) (onAccumulator action : EngineAction σ (Recorded κ) α) :=
  fun _ => ⟨rfl, rfl, rfl, rfl, rfl, (List.append_nil _).symm, id⟩

theorem keeps_onSpill (action : Spilling α) : Leads (Keeps []) (onSpill action : EngineAction σ (Recorded κ) α) := by
  intro s
  rw [perform_onSpill]
  exact ⟨rfl, rfl, rfl, rfl, rfl, (List.append_nil _).symm, id⟩

/-- A sink gets the call that is made, whether it fails or not. -/
theorem keeps_onSink [Drain κ] (call : SinkCall) {s : Session σ (Recorded κ)} (hs : s.engine.sink.isSome) :
    Keeps [call] s (perform (onSink (Drain.call call)) s).2 := by
  obtain ⟨r, hr⟩ := Option.isSome_iff_exists.1 hs
  have hpass : perform (Drain.call call : SinkAction (Recorded κ) Unit) (r, s.world.host) =
      ((perform (Drain.call call) (r.sink, s.world.host)).1,
        ⟨(perform (Drain.call call) (r.sink, s.world.host)).2.1, r.calls ++ [call]⟩,
        (perform (Drain.call call) (r.sink, s.world.host)).2.2) := by
    cases call with
    | write v => exact Recorded.perform_passing (.write v) (Drain.write v) r s.world.host
    | close => exact Recorded.perform_passing .close Drain.close r s.world.host
  rw [perform_onSink, hr]
  simp only [hpass]
  exact ⟨rfl, rfl, rfl, rfl, by rw [hr]; rfl, by simp [sinkCalls, withSink, hr], id⟩

section

variable (env : Environment σ (Recorded κ))

theorem keeps_tell (n : Notice) : Leads (Keeps []) (tell env n) := by
  intro s
  rw [perform_tell]
  exact ⟨rfl, rfl, rfl, rfl, rfl, (List.append_nil _).symm, id⟩

theorem keeps_signal (sig : EngineSignal) : Leads (Keeps []) (signal env sig) := keeps_tell env _

theorem keeps_report (f : Failure) : Leads (Keeps []) (report env f) :=
  Leads.bind (keeps_change fun _ => ⟨rfl, rfl, rfl, rfl, id⟩) fun _ =>
    Leads.bind (keeps_count _ _) fun _ => Leads.bind (keeps_record _ _ _ _) fun _ => keeps_signal env _

theorem keeps_checkSpill : Leads (Keeps []) (checkSpill env) := by
  refine Leads.bind Leads.get fun s => Leads.bind (keeps_onSpill _).lift fun r => ?_
  rcases r with f | _ | r
  · exact keeps_report env f
  · exact Leads.pure _
  · exact Leads.bind (keeps_count _ _) fun _ => Leads.bind (keeps_count _ _) fun _ =>
      Leads.bind (keeps_record _ _ _ _) fun _ => keeps_signal env _

theorem keeps_beginEvent (event : Value) : Leads (Keeps []) (beginEvent env event) := by
  refine Leads.bind Leads.get fun s => Leads.bind (keeps_onAccumulator _) fun outcome => ?_
  refine Leads.bind (Leads.forM (keeps_report env) _) fun _ => ?_
  have hrest : Leads (Keeps []) (do checkSpill env; return none : EngineAction σ (Recorded κ) (Option DueWrite)) :=
    Leads.bind (keeps_checkSpill env) fun _ => Leads.pure _
  cases outcome.delivered? with
  | some v => exact Leads.pure _
  | none =>
    dsimp only
    split
    · exact Leads.bind (keeps_count _ _) fun _ => Leads.bind (keeps_signal env _) fun _ => hrest
    · exact hrest

theorem keeps_flushStage (x : Nat × Stage) : Leads (Keeps []) (flushStage env x) := by
  obtain ⟨index, stage⟩ := x
  refine Leads.bind Leads.get fun s => ?_
  cases stage with
  | aggregate window reduce name =>
    dsimp only
    split
    · exact Leads.pure _
    · refine Leads.bind (keeps_onAccumulator _) fun r => ?_
      cases r with
      | error f => exact Leads.bind (keeps_report env _) fun _ => Leads.pure _
      | ok result =>
        refine Leads.bind (keeps_record _ _ _ _) fun _ => ?_
        split
        · exact Leads.pure _
        · exact Leads.pure _
  | _ => exact Leads.pure _

theorem keeps_flush (stages : List (Nat × Stage)) : Leads (Keeps []) (flush env stages) := by
  induction stages with
  | nil =>
    have hend : Leads (Keeps []) (finishStream env) :=
      Leads.bind (keeps_change fun _ => ⟨rfl, rfl, rfl, rfl, fun _ => rfl⟩) fun _ => keeps_signal env _
    exact Leads.bind hend fun _ => Leads.pure _
  | cons x rest ih =>
    refine Leads.bind (keeps_flushStage env x) fun r => ?_
    cases r with
    | some v => exact Leads.pure _
    | none => exact ih

theorem keeps_resume (next : Handling) : Leads (Keeps []) (resume env next) := by
  cases next with
  | event => exact Leads.bind (keeps_checkSpill env) fun _ => Leads.pure _
  | flush rest => exact keeps_flush env rest

/-- A step with calls of the sink, and then one without. -/
theorem Keeps.bind {calls : List SinkCall} {s : Session σ (Recorded κ)} {a : EngineAction σ (Recorded κ) α}
    {k : α → EngineAction σ (Recorded κ) β} (ha : Keeps calls s (perform a s).2) (hk : ∀ x, Leads (Keeps []) (k x)) :
    Keeps calls s (perform (a >>= k) s).2 := by
  rw [perform_bind]
  rcases hp : perform a s with ⟨f | x, t⟩
  · rw [hp] at ha
    exact ha
  · rw [hp] at ha
    simpa only [List.append_nil] using ha.trans (hk x t)

/-- The sink gets the value that is delivered. -/
theorem keeps_deliver [Drain κ] (v : Value) {s : Session σ (Recorded κ)} (hs : s.engine.sink.isSome) :
    Keeps [.write v] s (perform (deliver env v) s).2 := by
  refine Keeps.bind (keeps_onSink (.write v) hs) fun r => ?_
  cases r with
  | error f => exact keeps_report env _
  | ok _ => exact Leads.bind (keeps_count _ _) fun _ => keeps_signal env _

/-- The sink is closed. -/
theorem keeps_closeSink [Drain κ] {s : Session σ (Recorded κ)} (hs : s.engine.sink.isSome) :
    Keeps [.close] s (perform (closeSink env) s).2 := by
  refine Keeps.bind (keeps_onSink .close hs) fun r => ?_
  cases r with
  | error f => exact keeps_report env _
  | ok _ => exact Leads.pure _

end

/-! ### What an item comes to -/

/-- The buffer does not exceed its capacity, or what was too much could not be written to a file, and that was
told. -/
def Trimmed (s : Session σ κ) : Prop :=
  Fits s ∨ ∃ store f, perform (Spill.spillIfNeeded s.world.definition.capacity) store = (.error f, s.store) ∧
    .engine (.error f) ∈ s.world.notices

theorem Trimmed.of_core {s t : Session σ κ} (h : Trimmed s) (hcore : t.core = s.core)
    (htold : s.world.notices <+: t.world.notices) : Trimmed t := by
  have hdefinition : t.world.definition = s.world.definition := congrArg Core.definition hcore
  have hstore : t.store = s.store := congrArg Core.store hcore
  have hbuffer : t.engine.buffer = s.engine.buffer := congrArg SpillState.buffer hstore
  unfold Trimmed Fits at *
  rw [hdefinition, hstore, hbuffer]
  rcases h with h | ⟨store, f, hf, hn⟩
  · exact .inl h
  · exact .inr ⟨store, f, hf, htold.subset hn⟩

theorem Aside.trimmed {s t : Session σ κ} (h : Aside s t) (hs : Trimmed s) : Trimmed t :=
  hs.of_core h.core_eq h.told

/-- **The buffer is cut back**, also if a subscriber fails on that. -/
theorem trimmed_checkSpill (env : Environment σ κ) (s : Session σ κ) : Trimmed (perform (checkSpill env) s).2 := by
  rw [checkSpill, perform_bind_ok (perform_get s)]
  dsimp only
  rw [attempt, perform_bind_ok (perform_lift _ s), perform_onSpill]
  have hcases := Spill.spillIfNeeded_cases s.world.definition.capacity s.store
  rcases hp : perform (Spill.spillIfNeeded s.world.definition.capacity) s.store with ⟨f | _ | r, store⟩
  all_goals rw [hp] at hcases
  · have haside : Aside (withStore s store) (perform (report env f) (withStore s store)).2 := leads_report env f _
    have hdefinition := congrArg Core.definition haside.core_eq
    refine .inr ⟨s.store, f, ?_, mem_notices_report env f _⟩
    dsimp only
    rw [haside.store_eq, store_withStore, ← hp]
    exact congrArg (fun d : Definition => perform (Spill.spillIfNeeded d.capacity) s.store) hdefinition
  · rcases hcases with ⟨hle, h⟩ | ⟨-, f, files, -, h⟩ | ⟨-, files, -, h⟩
    · cases h
      exact .inl (by simpa [Fits, withStore, Session.store] using hle)
    · cases h
    · cases h
  · rcases hcases with ⟨-, h⟩ | ⟨-, f, files, -, h⟩ | ⟨hlt, files, -, h⟩
    · cases h
    · cases h
    · refine Aside.trimmed (s := withStore s store) ?_ (.inl ?_)
      · exact Leads.bind (leads_count _ _) (fun _ => Leads.bind (leads_count _ _) fun _ =>
          Leads.bind (leads_record _ _ _ _) fun _ => leads_signal env _) _
      · obtain rfl : store = Spill.afterSpill s.world.definition.capacity s.store files := (Prod.ext_iff.1 h).2
        simp only [Fits, withStore, Spill.afterSpill, Buffer.dropFront, List.length_drop]
        omega

/-! ### Steps that do not fail -/

/-- The step never fails. -/
def Returns (a : EngineAction σ κ α) : Prop := ∀ s, ∃ x t, perform a s = (.ok x, t)

theorem Returns.pure (x : α) : Returns (pure x : EngineAction σ κ α) := fun s => ⟨x, s, rfl⟩

theorem Returns.get : Returns (get : EngineAction σ κ (Session σ κ)) := fun s => ⟨s, s, rfl⟩

theorem Returns.attempt (a : EngineAction σ κ α) : Returns (attempt a) := fun _ => ⟨_, _, rfl⟩

theorem Returns.onAccumulator (action : StateM Accumulator α) :
    Returns (onAccumulator action : EngineAction σ κ α) := fun _ => ⟨_, _, rfl⟩

theorem Returns.change (f : Engine σ κ → Engine σ κ) : Returns (change f) := fun _ => ⟨_, _, rfl⟩

theorem Returns.bind {a : EngineAction σ κ α} {k : α → EngineAction σ κ β} (ha : Returns a) (hk : ∀ x, Returns (k x)) :
    Returns (a >>= k) := by
  intro s
  obtain ⟨x, t, ht⟩ := ha s
  obtain ⟨y, u, hu⟩ := hk x t
  exact ⟨y, u, (perform_bind_ok ht).trans hu⟩

theorem Returns.forM {f : α → EngineAction σ κ PUnit} (h : ∀ x, Returns (f x)) (xs : List α) : Returns (xs.forM f) := by
  induction xs with
  | nil => exact Returns.pure _
  | cons x xs ih => exact (h x).bind fun _ => ih

section

variable {env : Environment σ κ}

/-- To tell something does not fail if the subscribers bear it. -/
theorem Returns.tell {kind : Notice → Bool} (h : env.QuietOn kind) {n : Notice} (hn : kind n = true) :
    Returns (tell env n) :=
  fun s => ⟨(), _, perform_tell_of_quietOn h hn s⟩

variable (herror : env.QuietOn Notice.isError)

include herror

theorem Returns.report (f : Failure) : Returns (report env f) :=
  (Returns.change _).bind fun _ => (Returns.change _).bind fun _ => (Returns.change _).bind fun _ =>
    Returns.tell herror rfl

/-- A signal of the source is heard. -/
theorem Returns.hear (sent : SourceSignal) : Returns (hear env sent) := by
  cases sent with
  | data v =>
    refine Returns.get.bind fun s => ?_
    split
    · exact (Returns.change _).bind fun _ => Returns.change _
    · exact Returns.pure _
  | finished => exact Returns.change fun e => { e with queue := e.queue.map (·.put .finished) }
  | error f => exact Returns.report herror f

/-- A stage is flushed, whether its reducer fails or not. -/
theorem Returns.flushStage (x : Nat × Stage) : Returns (flushStage env x) := by
  obtain ⟨index, stage⟩ := x
  refine Returns.get.bind fun s => ?_
  cases stage with
  | aggregate window reduce name =>
    dsimp only
    split
    · exact Returns.pure _
    · refine (Returns.onAccumulator _).bind fun r => ?_
      cases r with
      | error f => exact (Returns.report herror _).bind fun _ => Returns.pure _
      | ok result =>
        refine (Returns.change _).bind fun _ => ?_
        split
        · exact Returns.pure _
        · exact Returns.pure _
  | _ => exact Returns.pure _

/-- A value is delivered, whether the sink takes it or not. -/
theorem Returns.deliver [Drain κ] (hprocessed : env.QuietOn Notice.isProcessed) (v : Value) :
    Returns (deliver env v) := by
  refine (Returns.attempt _).bind fun r => ?_
  cases r with
  | error f => exact Returns.report herror _
  | ok _ => exact (Returns.change _).bind fun _ => Returns.tell hprocessed rfl

end

/-! ### Pieces of items -/

/-- What is left to do after a write may be left of the item. -/
def Follows : QueueItem → Handling → Prop
  | .event _, .event => True
  | .finished, .flush _ => True
  | _, _ => False

/-- How many steps the consumer may still make for an item after a write is due. -/
def stepsLeft : Handling → Nat
  | .event => 1
  | .flush rest => rest.length + 1

/-- How many steps the consumer may make for an item. -/
def itemSteps (stages : List Stage) : QueueItem → Nat
  | .event _ => 2
  | .finished => (Chain.aggregateStages stages).length + 1
  | .stop => 1

theorem stepsLeft_pos (next : Handling) : 0 < stepsLeft next := by
  cases next <;> exact Nat.succ_pos _

/-- Begins to handle an item. -/
def beginItem (env : Environment σ κ) : QueueItem → EngineAction σ κ (Option DueWrite)
  | .event v => beginEvent env v
  | .finished => beginFlush env
  | .stop => return none

/-- What has been done when an item has been handled, as far as the subscribers bear what they are told. -/
def Done (env : Environment σ κ) : QueueItem → Session σ κ → Prop
  | .event _, t => env.QuietOn Notice.isFiltered → env.QuietOn Notice.isProcessed → Trimmed t
  | .finished, t => env.QuietOn Notice.isProcessed → t.engine.ended = some true
  | .stop, _ => True

theorem Done.of_core {env : Environment σ κ} {item : QueueItem} {s t : Session σ κ} (h : Done env item s)
    (hcore : t.core = s.core) (htold : s.world.notices <+: t.world.notices)
    (hended : s.engine.ended = some true → t.engine.ended = some true) : Done env item t := by
  cases item with
  | event v => exact fun hf hp => (h hf hp).of_core hcore htold
  | finished => exact fun hp => hended (h hp)
  | stop => trivial

/-- The piece of an item leads to another write, with `P` left to do after it, or there is no other write and `Q`
holds behind the piece, whether it fails or not. -/
structure Settles (a : EngineAction σ κ (Option DueWrite)) (s : Session σ κ) (P : Handling → Prop)
    (Q : Session σ κ → Prop) : Prop where
  /-- Another write is due. -/
  due : ∀ v next, (perform a s).1 = .ok (some (v, next)) → P next
  /-- No other write is due. -/
  settled : (∀ due, (perform a s).1 ≠ .ok (some due)) → Q (perform a s).2

section

variable {s t : Session σ κ} {P : Handling → Prop} {Q : Session σ κ → Prop}

theorem Settles.mono {P' : Handling → Prop} {Q' : Session σ κ → Prop} {a : EngineAction σ κ (Option DueWrite)}
    (h : Settles a s P Q) (hP : ∀ next, P next → P' next) (hQ : ∀ t, Q t → Q' t) : Settles a s P' Q' :=
  ⟨fun v next hnext => hP next (h.due v next hnext), fun hnone => hQ _ (h.settled hnone)⟩

/-- A step that did not fail came first. -/
theorem Settles.after {a : EngineAction σ κ α} {k : α → EngineAction σ κ (Option DueWrite)} {x : α}
    (ha : perform a s = (.ok x, t)) (hk : Settles (k x) t P Q) : Settles (a >>= k) s P Q := by
  constructor
  · rw [perform_bind_ok ha]
    exact hk.due
  · rw [perform_bind_ok ha]
    exact hk.settled

/-- No other write is due. -/
theorem Settles.done (h : Q s) : Settles (pure none) s P Q := by
  refine ⟨fun v next hnext => ?_, fun _ => h⟩
  cases hnext

/-- Another write is due. -/
theorem Settles.goOn {v : Value} {next : Handling} (h : P next) : Settles (pure (some (v, next))) s P Q := by
  refine ⟨fun v' next' hnext => ?_, fun hne => absurd rfl (hne _)⟩
  rw [perform_pure] at hnext
  cases hnext
  exact h

/-- A step came first that does not fail under the condition on which something holds in the end. -/
theorem Settles.afterBorne {c : Prop} {a : EngineAction σ κ α} {k : α → EngineAction σ κ (Option DueWrite)}
    (ha : c → Returns a) (hk : ∀ x t, Settles (k x) t P fun t => c → Q t) : Settles (a >>= k) s P fun t => c → Q t := by
  rcases hp : perform a s with ⟨f | x, t⟩
  · have hfails : perform (a >>= k) s = (.error f, t) := by rw [perform_bind, hp]
    refine ⟨fun v next hnext => ?_, fun _ hc => ?_⟩
    · rw [hfails] at hnext
      cases hnext
    · obtain ⟨x, u, hu⟩ := ha hc s
      cases hp.symm.trans hu
  · exact Settles.after hp (hk x t)

/-- The step comes last, and may fail. -/
theorem Settles.last {a : EngineAction σ κ Unit} (h : Q (perform a s).2) : Settles (do a; return none) s P Q := by
  rcases hp : perform a s with ⟨f | _, t⟩
  all_goals rw [hp] at h
  · have hfails : perform (do a; return none : EngineAction σ κ (Option DueWrite)) s = (.error f, t) := by
      rw [perform_bind, hp]
    refine ⟨fun v next hnext => ?_, fun _ => ?_⟩
    · rw [hfails] at hnext
      cases hnext
    · rw [hfails]
      exact h
  · exact Settles.after hp (Settles.done h)

end

section

variable {env : Environment σ κ} (herror : env.QuietOn Notice.isError)

include herror

/-- **An event is handled** up to a write, or to the end. -/
theorem settles_beginEvent (event : Value) (s : Session σ κ) :
    Settles (beginEvent env event) s (· = .event) fun t => env.QuietOn Notice.isFiltered → Trimmed t := by
  obtain ⟨_, t, ht⟩ := Returns.forM (Returns.report herror) (chainResult s event).1.errors
    (withHeld s (chainResult s event).2)
  refine Settles.after (perform_get s) (Settles.after (perform_onAccumulator _ s) (Settles.after ht ?_))
  have hrest : ∀ t, Settles (do checkSpill env; return none : EngineAction σ κ (Option DueWrite)) t (· = .event)
      fun t => env.QuietOn Notice.isFiltered → Trimmed t :=
    fun t => Settles.last fun _ => trimmed_checkSpill env t
  dsimp only
  split
  · exact Settles.goOn rfl
  · split
    · -- the rest is not done if a subscriber fails on the rejection
      refine Settles.after rfl (Settles.afterBorne (fun hfiltered => ?_) fun _ => hrest)
      exact Returns.tell hfiltered rfl
    · exact hrest t

/-- An event runs through the chain, and what the chain delivers is due. -/
theorem beginEvent_delivers {event v : Value} {s : Session σ κ} (hv : (chainResult s event).1.delivered? = some v) :
    ∃ t, perform (beginEvent env event) s = (.ok (some (v, .event)), t) := by
  obtain ⟨_, t, ht⟩ := Returns.forM (Returns.report herror) (chainResult s event).1.errors
    (withHeld s (chainResult s event).2)
  unfold chainResult at hv
  refine ⟨t, ?_⟩
  rw [beginEvent, perform_bind_ok (perform_get s), perform_bind_ok (perform_onAccumulator _ s)]
  refine (perform_bind_ok ht).trans ?_
  simp only [hv]
  rfl

/-- **Stages are flushed** up to a write, or to the end of the stream. -/
theorem settles_flush (stages : List (Nat × Stage)) (s : Session σ κ) :
    Settles (flush env stages) s (fun next => Follows .finished next ∧ stepsLeft next < stages.length + 1)
      fun t => t.engine.ended = some true := by
  induction stages generalizing s with
  | nil =>
    refine Settles.last ?_
    rw [finishStream, change, perform_bind_ok (perform_modify _ s), signal, perform_tell]
    rfl
  | cons x rest ih =>
    obtain ⟨r, t, ht⟩ := Returns.flushStage herror x s
    refine Settles.after ht ?_
    cases r with
    | some v => exact Settles.goOn ⟨trivial, Nat.lt_succ_self _⟩
    | none => exact (ih t).mono (fun next hnext => ⟨hnext.1, Nat.lt_succ_of_lt hnext.2⟩) fun _ hended => hended

/-- **An item is begun**, and whatever is left to do is left of it. -/
theorem settles_beginItem (item : QueueItem) (s : Session σ κ) :
    Settles (beginItem env item) s
      (fun next => Follows item next ∧ stepsLeft next < itemSteps s.engine.stages item) (Done env item) := by
  cases item with
  | event v =>
    refine (settles_beginEvent herror v s).mono (fun next hnext => ?_) fun t ht hfiltered _ => ht hfiltered
    subst hnext
    exact ⟨trivial, Nat.lt_succ_self 1⟩
  | finished =>
    have hflush := settles_flush herror (Chain.aggregateStages s.engine.stages) s
    rw [beginItem, beginFlush]
    exact Settles.after (perform_get s) (hflush.mono (fun _ hnext => hnext) fun t ht _ => ht)
  | stop => exact Settles.done trivial

/-- **The handling of an item goes on** after a write. -/
theorem settles_resume [Drain κ] {item : QueueItem} {next : Handling} (h : Follows item next) (v : Value)
    (s : Session σ κ) :
    Settles (deliver env v >>= fun _ => resume env next) s
      (fun next' => Follows item next' ∧ stepsLeft next' < stepsLeft next) (Done env item) := by
  have hreturns : env.QuietOn Notice.isProcessed → Returns (deliver env v) :=
    fun hprocessed => Returns.deliver herror hprocessed v
  cases item with
  | event e =>
    cases next with
    | flush rest => cases h
    | event =>
      have hlast : Settles (deliver env v >>= fun _ => resume env .event) s (fun _ => False)
          fun t => env.QuietOn Notice.isProcessed → Trimmed t :=
        Settles.afterBorne hreturns fun _ t => Settles.last fun _ => trimmed_checkSpill env t
      exact hlast.mono (fun _ hnext => hnext.elim) fun t ht _ hprocessed => ht hprocessed
  | finished =>
    cases next with
    | event => cases h
    | flush rest =>
      refine Settles.afterBorne hreturns fun _ t => ?_
      exact (settles_flush herror rest t).mono (fun _ hnext => hnext) fun t ht _ => ht
  | stop => cases next <;> cases h

end

section

variable [Drain κ] {env : Environment σ (Recorded κ)} {s : Session σ (Recorded κ)}

/-- A piece of an item has been handled: another write is due, after which the consumer may still make fewer than
`bound` steps for the item, or the item is done. -/
structure Handled (env : Environment σ (Recorded κ)) (item : QueueItem) (bound : Nat) (calls : List SinkCall)
    (s : Session σ (Recorded κ)) (due : Option DueWrite) (t : Session σ (Recorded κ)) : Prop where
  /-- The sink got the calls, and the rest is kept. -/
  keeps : Keeps calls s t
  /-- Another write is due. -/
  next : ∀ v next, due = some (v, next) → Follows item next ∧ stepsLeft next < bound
  /-- The item is done. -/
  done : due = none → Done env item t

variable (herror : env.QuietOn Notice.isError)

include herror

omit [Drain κ] in
/-- **The consumer handles a piece of an item and does not break down.** -/
theorem handle_step {item : QueueItem} {bound : Nat} {calls : List SinkCall}
    {a : EngineAction σ (Recorded κ) (Option DueWrite)}
    (h : Settles a s (fun next => Follows item next ∧ stepsLeft next < bound) (Done env item))
    (hk : Keeps calls s (perform a s).2) :
    ∃ due t, perform (handle env a) s = (.ok (), placed due t) ∧ Handled env item bound calls s due t := by
  obtain ⟨hdue, hdone⟩ := h
  rcases hp : perform a s with ⟨f | _ | ⟨v, next⟩, t⟩
  all_goals rw [hp] at hdue hdone hk
  · obtain ⟨_, u, hu⟩ := Returns.report herror f t
    have hreport := keeps_report env f t
    have haside := leads_report env f t
    rw [hu] at hreport haside
    refine ⟨none, u, ?_, ?_, by simp, fun _ => ?_⟩
    · rw [handle, attempt, perform_bind_ok (perform_lift a s), hp]
      dsimp only
      rw [attempt, perform_bind_ok (perform_lift _ t), hu]
      rfl
    · simpa only [List.append_nil] using hk.trans hreport
    · exact (hdone (by simp)).of_core haside.core_eq haside.told hreport.ended
  · refine ⟨none, t, ?_, hk, by simp, fun _ => hdone (by simp)⟩
    rw [handle, attempt, perform_bind_ok (perform_lift a s), hp]
    rfl
  · refine ⟨some (v, next), t, ?_, hk, ?_, by simp⟩
    · rw [handle, attempt, perform_bind_ok (perform_lift a s), hp]
      rfl
    · rintro _ _ ⟨⟩
      exact hdue v next rfl

/-- **The consumer takes the next item** and handles it up to a write, or to the end. -/
theorem take_step {item : QueueItem} {rest : List QueueItem} {n : Nat} (hconsumer : s.engine.consumer = .waiting)
    (hqueue : s.engine.queue = some ⟨item :: rest, n⟩) (hi : item ≠ .stop) :
    ∃ due t, perform (consume env) s = (.ok (), placed due t) ∧
      Handled env item (itemSteps s.engine.stages item) [] { s with engine.queue := some ⟨rest, n⟩ } due t := by
  have hp : perform (consume env) s =
      perform (handle env (beginItem env item)) { s with engine.queue := some ⟨rest, n⟩ } := by
    rw [consume, perform_bind_ok (perform_get s), hconsumer]
    dsimp only
    rw [take, perform_bind_ok (perform_get s), hqueue]
    cases item with
    | stop => exact absurd rfl hi
    | _ => rfl
  rw [hp]
  refine handle_step herror (settles_beginItem herror item _) ?_
  cases item with
  | event v => exact keeps_beginEvent env v _
  | finished => exact Leads.bind Leads.get (fun _ => keeps_flush env _) _
  | stop => exact absurd rfl hi

/-- **The consumer makes the write that is due**, and goes on with its item. -/
theorem write_step {item : QueueItem} {v : Value} {next : Handling} (hconsumer : s.engine.consumer = .writing v next)
    (hf : Follows item next) (hsink : s.engine.sink.isSome) :
    ∃ due t, perform (consume env) s = (.ok (), placed due t) ∧
      Handled env item (stepsLeft next) [.write v] s due t := by
  have hp : perform (consume env) s = perform (handle env (deliver env v >>= fun _ => resume env next)) s := by
    rw [consume, perform_bind_ok (perform_get s), hconsumer]
    rfl
  rw [hp]
  exact handle_step herror (settles_resume herror hf v s)
    ((keeps_deliver env v hsink).bind fun _ => keeps_resume env next)

/-- What the chain delivers for an event is due when the event has been taken. -/
theorem take_delivers {event v : Value} {rest : List QueueItem} {n : Nat} (hconsumer : s.engine.consumer = .waiting)
    (hqueue : s.engine.queue = some ⟨.event event :: rest, n⟩) (hv : (chainResult s event).1.delivered? = some v) :
    (perform (consume env) s).2.engine.consumer = .writing v .event := by
  let popped : Session σ (Recorded κ) := { s with engine.queue := some ⟨rest, n⟩ }
  obtain ⟨t, ht⟩ := beginEvent_delivers herror (s := popped) hv
  have hp : perform (consume env) s = perform (handle env (beginEvent env event)) popped := by
    rw [consume, perform_bind_ok (perform_get s), hconsumer]
    dsimp only
    rw [take, perform_bind_ok (perform_get s), hqueue]
    rfl
  rw [hp, handle, attempt, perform_bind_ok (perform_lift _ popped), ht]
  rfl

end

/-! ### What the source and the caller do -/

theorem foldl_put (items : List QueueItem) (q : Queue) :
    items.foldl Queue.put q = ⟨q.items ++ items, q.unfinished + items.length⟩ := by
  induction items generalizing q with
  | nil => simp
  | cons item items ih =>
    rw [List.foldl_cons, ih]
    simp [Queue.put, Nat.add_comm, Nat.add_left_comm]

/-- Items are put into the queue; the core and the consumer stay as they are, whatever is told. -/
structure Joins (items : List QueueItem) (s t : Session σ κ) : Prop where
  /-- The core is the same. -/
  core : t.core = s.core
  /-- The consumer is the same. -/
  consumer : t.engine.consumer = s.engine.consumer
  /-- The items are in the queue. -/
  queue : t.engine.queue = s.engine.queue.map (items.foldl Queue.put)
  /-- The end of the stream stays announced. -/
  ended : s.engine.ended = some true → t.engine.ended = some true
  /-- What was told stays. -/
  told : s.world.notices <+: t.world.notices

theorem Joins.trans {xs ys : List QueueItem} {s t u : Session σ κ} (h : Joins xs s t) (h' : Joins ys t u) :
    Joins (xs ++ ys) s u where
  core := h'.core.trans h.core
  consumer := h'.consumer.trans h.consumer
  queue := by
    rw [h'.queue, h.queue, Option.map_map]
    congr 1
    funext q
    rw [List.foldl_append]
    rfl
  ended he := h'.ended (h.ended he)
  told := h.told.trans h'.told

theorem joins_same {s t : Session σ κ} (hcore : t.core = s.core) (hconsumer : t.engine.consumer = s.engine.consumer)
    (hqueue : t.engine.queue = s.engine.queue) (hended : t.engine.ended = s.engine.ended)
    (htold : s.world.notices <+: t.world.notices) : Joins [] s t :=
  ⟨hcore, hconsumer, by rw [hqueue]; exact Option.map_id'.symm, fun he => hended.trans he, htold⟩

instance : IsPreorder (Session σ κ) (Joins []) where
  refl _ := joins_same rfl rfl rfl rfl List.prefix_rfl
  trans _ _ _ h h' := h.trans h'

theorem Joins.isSome {items : List QueueItem} {s t : Session σ κ} (h : Joins items s t)
    (hqueue : s.engine.queue.isSome) : t.engine.queue.isSome := by
  rw [h.queue, Option.isSome_map]
  exact hqueue

theorem joins_put (item : QueueItem) (s : Session σ κ) : Joins [item] s (perform (put item) s).2 :=
  ⟨rfl, rfl, rfl, id, List.prefix_rfl⟩

theorem joins_tell (env : Environment σ κ) (n : Notice) : Leads (Joins []) (tell env n) := by
  intro s
  rw [perform_tell]
  exact joins_same rfl rfl rfl rfl (List.prefix_append _ _)

theorem joins_report (env : Environment σ κ) (f : Failure) : Leads (Joins []) (report env f) := by
  have hlog : ∀ g : Engine σ κ → Engine σ κ,
      (∀ e, ∃ log lastError, g e = { e with log := log, lastError := lastError }) → Leads (Joins []) (change g) := by
    intro g hg s
    obtain ⟨log, lastError, he⟩ := hg s.engine
    rw [change, perform_modify, he]
    exact joins_same rfl rfl rfl rfl List.prefix_rfl
  exact Leads.bind (hlog _ fun _ => ⟨_, _, rfl⟩) fun _ => Leads.bind (hlog _ fun _ => ⟨_, _, rfl⟩) fun _ =>
    Leads.bind (hlog _ fun _ => ⟨_, _, rfl⟩) fun _ => joins_tell env _

theorem joins_onSource (step : Source σ → Except Failure α × Source σ) (otherwise : α) :
    Leads (Joins []) (onSource step otherwise : EngineAction σ κ α) := by
  refine Leads.bind Leads.get fun s => ?_
  cases s.engine.source with
  | none => exact Leads.pure _
  | some source =>
    refine Leads.bind (fun _ => joins_same rfl rfl rfl rfl List.prefix_rfl) fun _ => ?_
    cases (step source).1 with
    | ok a => exact Leads.pure _
    | error f => exact Leads.throw _

theorem joins_entered (b : EngineState) (s : Session σ κ) : Joins [] s (entered b s) :=
  joins_same rfl rfl rfl rfl List.prefix_rfl

/-- **What the source sends is put into the queue or reported.** -/
theorem joins_hear (env : Environment σ κ) (sent : SourceSignal) {s : Session σ κ} (hqueue : s.engine.queue.isSome) :
    ∃ items, .stop ∉ items ∧ Joins items s (perform (hear env sent) s).2 := by
  cases sent with
  | data v =>
    refine ⟨[.event v], by simp, ?_⟩
    rw [hear, perform_bind_ok (perform_get s), if_pos hqueue]
    exact ⟨rfl, rfl, rfl, id, List.prefix_rfl⟩
  | finished => exact ⟨[.finished], by simp, joins_put _ s⟩
  | error f => exact ⟨[], List.not_mem_nil, joins_report env f s⟩

theorem joins_sourceStep (env : Environment σ κ) (f : Source σ → Source σ) (sent : Option SourceSignal)
    {s : Session σ κ} (hqueue : s.engine.queue.isSome) :
    ∃ items, .stop ∉ items ∧ Joins items s (perform (sourceStep env f sent) s).2 := by
  have hchange : Joins [] s { s with engine.source := s.engine.source.map f } :=
    joins_same rfl rfl rfl rfl List.prefix_rfl
  cases sent with
  | none => exact ⟨[], List.not_mem_nil, hchange⟩
  | some sent =>
    obtain ⟨items, hi, hjoins⟩ := joins_hear env sent
      (s := { s with engine.source := s.engine.source.map f }) hqueue
    exact ⟨items, hi, hchange.trans hjoins⟩

section

variable [Feed σ] {env : Environment σ κ} {s : Session σ κ}

/-- **The start comes to its end**, also if a subscriber fails when it is told that the engine runs. -/
theorem start_ends (hact : isActive s.engine.consumer) (hstate : s.engine.state = .initializing)
    (hrun : (perform (startSource env) s).2.engine.state = .running) :
    pending (perform (startSource env) s).1 = none ∧ Joins [] s (perform (startSource env) s).2 := by
  have hsource := joins_onSource Source.start () s
  have hkept := still_onSource Source.start () s
  rw [startSource, attempt, perform_bind_ok (perform_lift _ s)] at hrun ⊢
  rcases hp : perform (onSource Source.start ()) s with ⟨f | _, t⟩
  all_goals rw [hp] at hsource hkept
  all_goals simp only [hp] at hrun ⊢
  · rw [perform_bind_ok (perform_get t)] at hrun
    have hactive : isActive t.engine.consumer := by rw [hsource.consumer]; exact hact
    cases hc : t.engine.consumer with
    | waiting | writing =>
      -- the consumer would be called off, and the engine would not run
      simp only [hc] at hrun
      cases (hkept.state.trans hstate).symm.trans hrun
    | _ =>
      rw [hc] at hactive
      cases hactive
  · rw [perform_bind_ok (perform_enter _ t)]
    refine ⟨pending_signal env _ _, trans_of (Joins []) (trans_of (Joins []) hsource (joins_entered .running t)) ?_⟩
    exact Leads.bind (joins_tell env _) (fun _ => Leads.pure _) _

omit [Feed σ] in
/-- Once the source has stopped, the consumer is told to leave. -/
theorem Joins.afterSource {items : List QueueItem} {t : Session σ κ} (h : Joins items s t)
    (hqueue : s.engine.queue.isSome) (hact : isActive s.engine.consumer) (hi : .stop ∉ items) :
    ∃ items u, perform (afterSource env) t = (.ok (some .emptyingQueue), u) ∧ .stop ∉ items ∧
      Joins (items ++ [.stop]) s u :=
  ⟨items, _, perform_afterSource (h.isSome hqueue) (by rw [h.consumer]; exact hact), hi, h.trans (joins_put .stop t)⟩

/-- **The source is stopped, and the consumer told to leave.** -/
theorem stopSource_returns (herror : env.QuietOn Notice.isError) (announces : Bool) (hqueue : s.engine.queue.isSome)
    (hact : isActive s.engine.consumer) :
    ∃ items t, perform (stopSource env announces) s = (.ok (some .emptyingQueue), t) ∧ .stop ∉ items ∧
      Joins (items ++ [.stop]) s t := by
  have hsource := joins_onSource (Source.finishStop announces) none s
  rw [stopSource, attempt, perform_bind_ok (perform_lift _ s)]
  generalize perform (onSource (Source.finishStop announces) none) s = p at hsource
  obtain ⟨f | _ | sent, t⟩ := p
  · obtain ⟨_, u, hu⟩ := Returns.report herror f t
    have hreport := joins_report env f t
    rw [hu] at hreport
    dsimp only
    rw [perform_bind_ok hu]
    exact (trans_of (Joins []) hsource hreport).afterSource hqueue hact List.not_mem_nil
  · exact hsource.afterSource hqueue hact List.not_mem_nil
  · obtain ⟨_, u, hu⟩ := Returns.hear herror sent t
    obtain ⟨items, hi, hhear⟩ := joins_hear env sent (hsource.isSome hqueue)
    rw [hu] at hhear
    dsimp only
    rw [perform_bind_ok hu]
    exact (hsource.trans hhear).afterSource hqueue hact hi

/-- **The engine is told to stop.** -/
theorem stop_returns (hstate : s.engine.state = .running) (hqueue : s.engine.queue.isSome)
    (hact : isActive s.engine.consumer) :
    ∃ t, t.engine.state = .stopping ∧
      ((∃ announces, perform (Engine.stop env) s = (.ok (some (.stoppingSource announces)), t) ∧ Joins [] s t) ∨
        (perform (Engine.stop env) s = (.ok (some .emptyingQueue), t) ∧ Joins [.stop] s t)) := by
  rw [Engine.stop, perform_bind_ok (perform_get s), hstate]
  dsimp only
  rw [perform_bind_ok (perform_enter _ s), perform_bind_ok (perform_get _)]
  cases hs : (entered .stopping s).engine.source with
  | none =>
    refine ⟨_, rfl, .inr ⟨perform_afterSource (s := entered .stopping s) hqueue hact, ?_⟩⟩
    exact (joins_entered .stopping s).trans (joins_put .stop _)
  | some source => exact ⟨_, rfl, .inl ⟨_, rfl, joins_same rfl rfl rfl rfl List.prefix_rfl⟩⟩

end

section

variable [Feed σ] [Drain κ] {env : Environment σ (Recorded κ)} (herror : env.QuietOn Notice.isError)

include herror

omit [Feed σ] in
/-- The sink is closed, whether it fails or not. -/
theorem Returns.closeSink : Returns (closeSink env) := by
  refine (Returns.attempt _).bind fun r => ?_
  cases r with
  | error f => exact Returns.report herror _
  | ok _ => exact Returns.pure _

omit [Feed σ] [Drain κ] in
/-- **The spilled values are removed**, and whatever cannot be removed is reported. -/
theorem discardSpill_returns (s : Session σ (Recorded κ)) :
    ∃ t, perform (discardSpill env) s = (.ok (), t) ∧ Keeps [] s t ∧ t.store = (Spill.discardAll.run s.store).2 := by
  have hlog : ∀ events files, Returns (logDiscarded events files : EngineAction σ (Recorded κ) Unit) ∧
      Leads Aside (logDiscarded events files : EngineAction σ (Recorded κ) Unit) ∧
      Leads (Keeps []) (logDiscarded events files : EngineAction σ (Recorded κ) Unit) := by
    intro events files
    unfold logDiscarded
    split_ifs
    · exact ⟨Returns.pure _, Leads.pure _, Leads.pure _⟩
    · refine ⟨(Returns.change _).bind fun _ => Returns.change _, ?_, ?_⟩
      · exact Leads.bind (Leads.modify fun s => aside_log s _ _ _) fun _ => leads_record _ _ _ _
      · exact Leads.bind (keeps_change fun _ => ⟨rfl, rfl, rfl, rfl, id⟩) fun _ => keeps_record _ _ _ _
  let u : Session σ (Recorded κ) := withStore s (Spill.discardAll.run s.store).2
  have hspill : perform (onSpill (ExceptT.lift Spill.discardAll)) s = (.ok (Spill.discardAll.run s.store).1, u) :=
    perform_onSpill _ s
  have hkeeps := keeps_onSpill (ExceptT.lift Spill.discardAll) s
  rw [hspill] at hkeeps
  have hp : perform (discardSpill env) s = perform ((Spill.discardAll.run s.store).1.forM (report env) >>= fun _ =>
      logDiscarded s.engine.spill.pendingEvents s.engine.spill.pending.length) u := by
    rw [discardSpill, perform_bind_ok (perform_get s), perform_bind_ok hspill]
  obtain ⟨_, t, ht⟩ := (Returns.forM (Returns.report herror) (Spill.discardAll.run s.store).1).bind
    (fun _ => (hlog s.engine.spill.pendingEvents s.engine.spill.pending.length).1) u
  have haside := Leads.bind (Leads.forM (leads_report env) (Spill.discardAll.run s.store).1)
    (fun _ => (hlog s.engine.spill.pendingEvents s.engine.spill.pending.length).2.1) u
  have hrest := Leads.bind (Leads.forM (keeps_report env) (Spill.discardAll.run s.store).1)
    (fun _ => (hlog s.engine.spill.pendingEvents s.engine.spill.pending.length).2.2) u
  rw [ht] at haside hrest
  exact ⟨t, hp.trans ht, trans_of (Keeps []) hkeeps hrest, haside.store_eq⟩

/-- **The last piece of a stop** closes the sink and removes the spilled values, also if a subscriber fails when it is
told that the engine has stopped. -/
theorem close_ends {s : Session σ (Recorded κ)} (hsink : s.engine.sink.isSome) :
    pending (perform (proceed env .closingSink) s).1 = none ∧
      Keeps [.close] s (perform (proceed env .closingSink) s).2 ∧
      (perform (proceed env .closingSink) s).2.engine.state = .stopped ∧
      ∃ before, (perform (proceed env .closingSink) s).2.store = (Spill.discardAll.run before).2 := by
  obtain ⟨_, t, ht⟩ := Returns.closeSink herror s
  have hclose := keeps_closeSink env hsink
  rw [ht] at hclose
  obtain ⟨u, hu, hdiscard, hstore⟩ := discardSpill_returns herror t
  have hlast : perform (proceed env .closingSink) s =
      perform (do signal env .stopped; return none) (entered .stopped u) := by
    rw [proceed, perform_bind_ok ht, finishStop, perform_bind_ok hu, perform_bind_ok (perform_enter _ u)]
  have hkeeps :
      Leads (Keeps []) (do signal env .stopped; return none : EngineAction σ (Recorded κ) (Option EngineCall)) :=
    Leads.bind (keeps_signal env _) fun _ => Leads.pure _
  have haside : Leads Aside (do signal env .stopped; return none : EngineAction σ (Recorded κ) (Option EngineCall)) :=
    Leads.bind (leads_signal env _) fun _ => Leads.pure _
  rw [hlast]
  refine ⟨pending_signal env _ _, ?_, ?_, t.store, ?_⟩
  · have hentered : Keeps [] u (entered .stopped u) := ⟨rfl, rfl, rfl, rfl, rfl, (List.append_nil _).symm, id⟩
    have hrest := trans_of (Keeps []) hdiscard (trans_of (Keeps []) hentered (hkeeps _))
    simpa only [List.append_nil] using hclose.trans hrest
  · exact (kept_signal env _ _).state
  · exact (haside _).store_eq.trans hstore

end

end Engine

end EventPipeline
