import EventPipeline.Proofs.Engine.Books
import EventPipeline.Proofs.Engine.Ledger
import EventPipeline.Proofs.Engine.Meanwhile

/-!
# Run accounting

What the counters of a run say is what happened in it: as many errors as were told and logged, as many processed
values as writes to the sink returned, as many values spilled as were reloaded, are pending, or were discarded at
the end. A run is any number of acts, in any order (`Act`, `Run`): pieces of starts and stops, signals of the source,
steps of the consumer, events that are handled at once, and reloads; in between others may change the world.

Each act either is calm, or opens and drops connectors (`Opens`), or is the last piece of a stop, which discards what
is pending and warns of it (`Discards`). The main statement is `run_accounts`.
-/

namespace EventPipeline

variable {σ κ α : Type}

namespace Engine

/-! ### The consumer and the source -/

section

variable {env : Environment σ (Tallied κ)} (hq : env.Quiet)

include hq

theorem inert_hear (sent : SourceSignal) : Leads Inert (hear env sent) := by
  cases sent with
  | data v =>
    refine Leads.bind Leads.get fun s => ?_
    split
    · exact Leads.bind (inert_count_received 1) fun _ => inert_change fun _ => ⟨rfl, rfl, rfl⟩
    · exact Leads.pure _
  | finished => exact inert_change fun _ => ⟨rfl, rfl, rfl⟩
  | error f => exact inert_report hq f

theorem inert_sourceStep (f : Source σ → Source σ) (sent : Option SourceSignal) :
    Leads Inert (sourceStep env f sent) := by
  refine Leads.bind (inert_change fun _ => ⟨rfl, rfl, rfl⟩) fun _ => ?_
  cases sent with
  | none => exact Leads.pure _
  | some sent => exact inert_hear hq sent

theorem calm_beginEvent (v : Value) : Leads Calm (beginEvent env v) := by
  refine Leads.bind Leads.get fun s => Leads.bind (calm_of_inert (inert_onAccumulator _)) fun outcome => ?_
  refine Leads.bind (Leads.forM (fun f => calm_of_inert (inert_report hq f)) _) fun _ => ?_
  have hrest : Leads Calm (do checkSpill env; return none : EngineAction σ (Tallied κ) (Option DueWrite)) :=
    Leads.bind (calm_checkSpill hq) fun _ => Leads.pure _
  cases outcome.delivered? with
  | some v => exact Leads.pure _
  | none =>
    dsimp only
    split
    · have hfiltered := Leads.bind (calm_filtered hq v) fun _ => hrest
      simpa only [bind_assoc] using hfiltered
    · exact hrest

theorem inert_flushStage (s : Nat × Stage) : Leads Inert (flushStage env s) := by
  obtain ⟨index, stage⟩ := s
  refine Leads.bind Leads.get fun t => ?_
  cases stage with
  | aggregate window reduce name =>
    dsimp only
    split
    · exact Leads.pure _
    · refine Leads.bind (inert_onAccumulator _) fun r => ?_
      cases r with
      | error f => exact Leads.bind (inert_report hq _) fun _ => Leads.pure _
      | ok result =>
        refine Leads.bind (inert_record (by decide) (by decide)) fun _ => ?_
        split
        · exact Leads.pure _
        · exact Leads.pure _
  | _ => exact Leads.pure _

theorem inert_flush (stages : List (Nat × Stage)) : Leads Inert (flush env stages) := by
  induction stages with
  | nil =>
    refine Leads.bind (Leads.bind (inert_change fun _ => ⟨rfl, rfl, rfl⟩) fun _ => ?_) fun _ => Leads.pure _
    exact inert_signal hq (.inr rfl)
  | cons s rest ih =>
    refine Leads.bind (inert_flushStage hq s) fun r => ?_
    cases r with
    | some v => exact Leads.pure _
    | none => exact ih

theorem calm_handle {a : EngineAction σ (Tallied κ) (Option DueWrite)} (h : Leads Calm a) :
    Leads Calm (handle env a) := by
  have hchange : ∀ {f : Engine σ (Tallied κ) → Engine σ (Tallied κ)},
      (∀ e, (f e).log = e.log ∧ (f e).spill = e.spill ∧ (f e).sink = e.sink) → Leads Calm (change f) :=
    fun h => calm_of_inert (inert_change h)
  refine Leads.bind (Leads.lift h) fun r => ?_
  rcases r with f | _ | due
  · refine Leads.bind (Leads.lift (calm_of_inert (inert_report hq f))) fun r => ?_
    cases r with
    | ok _ => exact hchange fun _ => ⟨rfl, rfl, rfl⟩
    | error g => exact hchange fun _ => ⟨rfl, rfl, rfl⟩
  · exact hchange fun _ => ⟨rfl, rfl, rfl⟩
  · exact hchange fun _ => ⟨rfl, rfl, rfl⟩

/-- **A step of the consumer is calm.** -/
theorem calm_consume [Drain κ] : Leads Calm (consume env) := by
  refine Leads.bind Leads.get fun s => ?_
  cases s.engine.consumer with
  | waiting =>
    refine Leads.bind Leads.get fun t => ?_
    split
    · refine Leads.bind (calm_of_inert (inert_change fun _ => ⟨rfl, rfl, rfl⟩)) fun _ => ?_
      split
      · exact calm_handle hq (calm_beginEvent hq _)
      · exact calm_handle hq (Leads.bind Leads.get fun _ => calm_of_inert (inert_flush hq _))
      · exact calm_of_inert (inert_change fun _ => ⟨rfl, rfl, rfl⟩)
    · exact Leads.pure _
  | writing v next =>
    refine calm_handle hq (Leads.bind (calm_deliver hq v) fun _ => ?_)
    cases next with
    | event => exact Leads.bind (calm_checkSpill hq) fun _ => Leads.pure _
    | flush rest => exact calm_of_inert (inert_flush hq rest)
  | _ => exact Leads.pure _

theorem calm_process [Drain κ] (v : Value) : Leads Calm (process env v) := by
  refine Leads.bind (calm_beginEvent hq v) fun r => ?_
  cases r with
  | none => exact Leads.pure _
  | some due => exact Leads.bind (calm_deliver hq _) fun _ => calm_checkSpill hq

end

/-! ### Starts -/

/-- Fair, with nothing written; the sink may be dropped, or made anew. -/
structure Opens (s t : Session σ (Tallied κ)) : Prop extends Fair s t where
  /-- There is no new warning in the log. -/
  warned : warned t = Engine.warned s
  /-- There is no new warning. -/
  warnings : t.engine.log.warnings = s.engine.log.warnings
  /-- No stop has ended. -/
  stops : timesStopped t = timesStopped s
  /-- No write is counted. -/
  processed : total .processed t = total .processed s
  /-- The sink is the same, or has not taken any write. -/
  returned : returned t = 0 ∨ Engine.returned t = Engine.returned s

instance : IsPreorder (Session σ (Tallied κ)) Opens where
  refl s := ⟨refl_of Fair s, rfl, rfl, rfl, rfl, .inr rfl⟩
  trans s t u h h' := ⟨trans_of Fair h.toFair h'.toFair, h'.warned.trans h.warned, h'.warnings.trans h.warnings,
    h'.stops.trans h.stops, h'.processed.trans h.processed, by have := h.returned; have := h'.returned; omega⟩

theorem Inert.opens {s t : Session σ (Tallied κ)} (h : Inert s t) : Opens s t :=
  ⟨h.toFair, h.warned, h.warnings, h.stops, h.processed, by have := h.written; have := h.processed; omega⟩

theorem opens_of_inert {a : EngineAction σ (Tallied κ) α} (h : Leads Inert a) : Leads Opens a :=
  h.mono fun _ _ => Inert.opens

/-- The sink is dropped, or replaced by one that has not taken any write. -/
theorem opens_change {f : Engine σ (Tallied κ) → Engine σ (Tallied κ)}
    (h : ∀ e, (f e).log = e.log ∧ (f e).spill = e.spill ∧ ∀ k ∈ (f e).sink, k.returned = 0) :
    Leads Opens (change f) := by
  refine Leads.modify fun s => ?_
  obtain ⟨hlog, hspill, hsink⟩ := h s.engine
  refine ⟨⟨?_, fun c => ?_, List.prefix_refl _⟩, ?_, ?_, rfl, ?_, .inl ?_⟩
  · simp only [balance, hlog, hspill]
  · simp only [total, hlog, le_refl]
  · simp only [warned, hlog]
  · simp only [hlog]
  · simp only [total, hlog]
  · unfold returned
    cases hk : (f s.engine).sink with
    | none => rfl
    | some k => exact hsink k hk

/-- A sink that has just been made has not taken any write. -/
theorem returned_createSink {env : Environment σ κ} {working : Text} {d : Descriptor} {k : Tallied κ}
    (h : env.tallied.registry.createSink working d = .ok k) : k.returned = 0 := by
  unfold Registry.createSink Registry.create at h
  split at h
  · cases h
  · rename_i make hmake
    obtain ⟨⟨name, make'⟩, -, hentry⟩ := List.mem_map.1 (Table.mem_of_find? hmake)
    cases hentry
    dsimp only at h
    cases hk : make' working d.config with
    | error f =>
      rw [hk] at h
      cases h
    | ok k' =>
      rw [hk] at h
      cases h
      rfl

section

variable {env : Environment σ κ} (hq : env.tallied.Quiet)

theorem opens_makeConnectors : Leads Opens (makeConnectors env.tallied) := by
  refine Leads.bind Leads.get fun s => ?_
  dsimp only
  split
  · exact Leads.throw _
  · exact Leads.throw _
  · rename_i source sink _ _
    refine Leads.bind (opens_of_inert ?_) fun feed =>
      Leads.bind (opens_of_inert (inert_change fun _ => ⟨rfl, rfl, rfl⟩)) fun _ => ?_
    · cases env.tallied.registry.createSource s.world.host.files.working source with
      | ok a => exact Leads.pure _
      | error f => exact Leads.throw _
    · cases hk : env.tallied.registry.createSink s.world.host.files.working sink with
      | error f => exact Leads.throw _
      | ok k =>
        have hsink : Leads Opens (change fun e => { e with sink := some k } : EngineAction σ (Tallied κ) Unit) := by
          refine opens_change fun _ => ⟨rfl, rfl, ?_⟩
          rintro _ ⟨⟩
          exact returned_createSink hk
        intro t
        rw [perform_bind_ok (show perform (makeConnectors.liftExcept (.ok k)) t = (.ok k, t) from rfl)]
        exact Leads.bind hsink (fun _ => opens_of_inert (inert_record info_ne_error info_ne_warning)) t

include hq

theorem opens_giveUp (f : Failure) : Leads Opens (giveUp env.tallied f) := by
  refine Leads.bind (opens_change fun _ => ⟨rfl, rfl, ?_⟩) fun _ =>
    Leads.bind (opens_of_inert (inert_report hq f)) fun _ =>
      Leads.bind (opens_of_inert (inert_enter _)) fun _ => Leads.throw _
  intro k hk
  cases hk

theorem opens_abandon (f : Failure) : Leads Opens (abandon env.tallied f) := by
  refine Leads.bind Leads.get fun s => ?_
  split
  · exact Leads.pure _
  · exact opens_giveUp hq f

theorem opens_start : Leads Opens (Engine.start env.tallied) := by
  refine Leads.bind Leads.get fun s => ?_
  split
  · exact Leads.pure _
  · refine Leads.bind (opens_of_inert (inert_enter _)) fun _ => Leads.bind (Leads.lift opens_makeConnectors) fun r => ?_
    cases r with
    | error f => exact opens_abandon hq f
    | ok _ => exact Leads.bind (opens_of_inert (inert_change fun _ => ⟨rfl, rfl, rfl⟩)) fun _ => Leads.pure _

theorem opens_startSource [Feed σ] : Leads Opens (startSource env.tallied) := by
  refine Leads.bind (opens_of_inert (inert_attempt (inert_onSource _ _))) fun r => ?_
  cases r with
  | ok _ =>
    exact opens_of_inert
      (Leads.bind (inert_enter _) fun _ => Leads.bind (inert_signal hq (.inl rfl)) fun _ => Leads.pure _)
  | error f =>
    refine Leads.bind Leads.get fun s => ?_
    cases s.engine.consumer with
    | absent => exact opens_abandon hq _
    | waiting | writing =>
      exact opens_of_inert (Leads.bind (inert_change fun _ => ⟨rfl, rfl, rfl⟩) fun _ => Leads.pure _)
    | _ => exact Leads.pure _

theorem opens_leaveConsumer (f : Failure) : Leads Opens (leaveConsumer env.tallied f) := by
  refine Leads.bind Leads.get fun s => ?_
  cases s.engine.consumer with
  | broken g => exact Leads.throw g
  | _ => exact opens_abandon hq f

end

/-! ### Stops -/

/-- The message of a warning that spilled values were discarded. -/
def discardMessage (events files : Nat) : Text :=
  "discarded " ++ Text.ofNat events ++ " spilled events (" ++ Text.ofNat files ++ " files) without replay"

/-- The entry of such a warning: it names the number of the values and of the files. -/
def discardEntry (events files : Nat) : LogEntry :=
  ⟨"spillover", "warning", discardMessage events files, [("events", .nat events), ("files", .nat files)]⟩

@[simp] theorem level_discardEntry (events files : Nat) : (discardEntry events files).level = "warning" := rfl

@[simp] theorem discarded_discardEntry (events files : Nat) : (discardEntry events files).discarded = events := rfl

/-- The entry for what is pending, if there is any file of it. -/
def pendingWarning? (spill : Spill) : Option LogEntry :=
  if spill.pending.length = 0 then none else some (discardEntry spill.pendingEvents spill.pending.length)

/-- All that is pending is discarded, and the log says so, if that is anything. -/
structure Discards (s t : Session σ (Tallied κ)) : Prop extends Fair s t where
  /-- Nothing is pending any more. -/
  pending : t.engine.spill.pending = []
  /-- The entry is in the log. -/
  warned : warned t = Engine.warned s ++ (pendingWarning? s.engine.spill).toList
  /-- The warning is made. -/
  warnings : t.engine.log.warnings = (pendingWarning? s.engine.spill).elim s.engine.log.warnings
    fun e => (s.engine.log.warn e.stage e.message).warnings
  /-- No write is counted. -/
  processed : total .processed t = total .processed s
  /-- No write has returned. -/
  returned : Engine.returned t = Engine.returned s

/-- All that is pending is discarded, and the subscribers are told that the engine has stopped. -/
structure Ends (s t : Session σ (Tallied κ)) : Prop extends Discards s t where
  /-- A stop has ended. -/
  stops : timesStopped t = timesStopped s + 1

/-- There is nothing to discard. -/
theorem Discards.of_nothing {s t : Session σ (Tallied κ)} (hpending : s.engine.spill.pending.length = 0)
    (h : Inert s t) : Discards s t where
  toFair := h.toFair
  pending := by rw [h.spill, List.length_eq_zero_iff.1 hpending]
  warned := by rw [h.warned, pendingWarning?, if_pos hpending, Option.toList_none, List.append_nil]
  warnings := by rw [h.warnings, pendingWarning?, if_pos hpending, Option.elim_none]
  processed := h.processed
  returned := by have := h.written; have := h.processed; omega

/-- The session after the log has been told what was discarded. -/
def logged (events files : Nat) (s : Session σ κ) : Session σ κ :=
  { s with engine.log := (s.engine.log.warn "spillover" (discardMessage events files)).log (discardEntry events files) }

/-- What was pending is removed, and the log says so. -/
theorem Discards.of_logged {s t : Session σ (Tallied κ)} {store : SpillState}
    (hpending : s.engine.spill.pending.length ≠ 0)
    (hspill : store.spill = { s.engine.spill with pending := [] }) (h : Inert (withStore s store) t) :
    Discards s (logged s.engine.spill.pendingEvents s.engine.spill.pending.length t) := by
  have hentry : pendingWarning? s.engine.spill =
      some (discardEntry s.engine.spill.pendingEvents s.engine.spill.pending.length) := if_neg hpending
  have hgone : t.engine.spill.pending = [] := by
    rw [h.spill]
    exact congrArg Spill.pending hspill
  have hevents : t.engine.spill.pendingEvents = 0 := by
    rw [Spill.pendingEvents_eq_sum, hgone, List.map_nil, List.sum_nil]
  have hstored : store.spill.pendingEvents = 0 := by
    rw [Spill.pendingEvents_eq_sum, hspill, List.map_nil, List.sum_nil]
  refine ⟨⟨?_, h.totals, h.told⟩, hgone, ?_, ?_, h.processed, ?_⟩
  · have hbalance := h.balance
    simp only [balance, balanceOf, withStore, Balance.mk.injEq] at hbalance
    obtain ⟨herrors, hlogged, hprocessed, hfiltered, hfiles, hspilled, hleft⟩ := hbalance
    ext <;> simp only [logged, balance, balanceOf, RunLog.counter_log, RunLog.counter_warn, RunLog.entriesOf_log,
      RunLog.entriesOf_warn, level_discardEntry, discarded_discardEntry, warning_ne_error, if_true, if_false,
      List.map_append, List.map_cons, List.map_nil, List.append_nil, List.sum_append, List.sum_cons, List.sum_nil,
      Nat.add_zero, Nat.cast_add, herrors, hlogged, hprocessed, hfiltered, hfiles, hspilled]
    rw [hevents]
    rw [hevents, hstored] at hleft
    omega
  · have hwarned : Engine.warned t = Engine.warned s := h.warned
    rw [hentry, Option.toList_some, ← hwarned]
    simp [Engine.warned, logged]
  · have hwarnings := h.warnings
    simp [hentry, logged, RunLog.warn, RunLog.log, hwarnings, discardEntry, withStore]
  · have hprocessed := h.processed
    have hwritten := h.written
    show Engine.returned t = Engine.returned s
    have hbefore : Engine.returned (withStore s store) = Engine.returned s := rfl
    omega

/-- Inert steps may come after it. -/
theorem Discards.inert {s t u : Session σ (Tallied κ)} (h : Discards s t) (h' : Inert t u) : Discards s u where
  toFair := trans_of Fair h.toFair h'.toFair
  pending := by rw [h'.spill, h.pending]
  warned := h'.warned.trans h.warned
  warnings := h'.warnings.trans h.warnings
  processed := h'.processed.trans h.processed
  returned := by have := h'.written; have := h'.processed; have := h.returned; omega

/-- The subscribers are told, and the stop has come to its end. -/
theorem Discards.ends {s t : Session σ (Tallied κ)} (h : Discards s t) (hstops : timesStopped t = timesStopped s)
    (env : Environment σ (Tallied κ)) : Ends s (withTold env (.engine .stopped) t) where
  balance := by
    rw [← h.balance]
    simp [balance, balanceOf, Notice.isError, Notice.isProcessed, Notice.isFiltered, Notice.isSpillover, Notice.spilled]
  totals := h.totals
  told := h.told.trans (List.prefix_append _ _)
  pending := h.pending
  warned := h.warned
  warnings := h.warnings
  processed := h.processed
  returned := h.returned
  stops := by
    rw [← hstops]
    simp [timesStopped, Notice.isStopped]

/-- Inert steps may come before it. -/
theorem Ends.of_inert {s t u : Session σ (Tallied κ)} (h : Inert s t) (h' : Ends t u) : Ends s u where
  toFair := trans_of Fair h.toFair h'.toFair
  pending := h'.pending
  warned := by rw [h'.warned, h.warned, h.spill]
  warnings := by
    rw [h'.warnings, h.spill]
    cases pendingWarning? s.engine.spill with
    | none => exact h.warnings
    | some e => simp only [Option.elim_some, RunLog.warn, h.warnings]
  processed := h'.processed.trans h.processed
  returned := by have := h.written; have := h.processed; have := h'.returned; omega
  stops := by rw [h'.stops, h.stops]

/-- The step is inert or ends a stop. -/
def Concludes (a : EngineAction σ (Tallied κ) α) : Prop := ∀ s, Inert s (perform a s).2 ∨ Ends s (perform a s).2

theorem Concludes.of_inert {a : EngineAction σ (Tallied κ) α} (h : Leads Inert a) : Concludes a := fun s => .inl (h s)

/-- Inert steps may come first. -/
theorem Concludes.after {β : Type} {a : EngineAction σ (Tallied κ) α} {k : α → EngineAction σ (Tallied κ) β}
    (ha : Leads Inert a) (hk : ∀ x, Concludes (k x)) : Concludes (a >>= k) := by
  intro s
  have h := ha s
  rw [perform_bind]
  rcases hp : perform a s with ⟨f | x, t⟩
  · rw [hp] at h
    exact .inl h
  · rw [hp] at h
    exact (hk x t).imp (trans_of Inert h) (Ends.of_inert h)

section

variable {env : Environment σ (Tallied κ)} (hq : env.Quiet)

include hq

theorem perform_reports (fs : List Failure) (s : Session σ (Tallied κ)) :
    ∃ t, perform (fs.forM (report env)) s = (.ok ⟨⟩, t) := by
  induction fs generalizing s with
  | nil => exact ⟨s, rfl⟩
  | cons f fs ih =>
    obtain ⟨e, -, hp⟩ := perform_report hq f s
    obtain ⟨t, ht⟩ := ih (perform (report env f) s).2
    refine ⟨t, ?_⟩
    rw [hp] at ht
    exact (perform_bind_ok hp).trans ht

omit hq in
theorem perform_logDiscarded {files : Nat} (h : files ≠ 0) (events : Nat) (s : Session σ (Tallied κ)) :
    perform (logDiscarded events files) s = (.ok (), logged events files s) := by
  rw [logDiscarded, if_neg h]
  rfl

/-- **What is pending is discarded**, whatever comes of the removal of its files. -/
theorem discards_discardSpill (s : Session σ (Tallied κ)) :
    ∃ t, perform (discardSpill env) s = (.ok (), t) ∧ Discards s t ∧ timesStopped t = timesStopped s := by
  obtain ⟨files, hfiles⟩ := Spill.discardAll_eq s.store
  have hspill : (Spill.discardAll.run s.store).2.spill = { s.engine.spill with pending := [] } := by
    rw [hfiles]
    rfl
  have hp : perform (onSpill (ExceptT.lift Spill.discardAll)) s =
      (.ok (Spill.discardAll.run s.store).1, withStore s (Spill.discardAll.run s.store).2) := perform_onSpill _ s
  generalize Spill.discardAll.run s.store = r at hspill hp
  obtain ⟨failures, store⟩ := r
  obtain ⟨t, ht⟩ := perform_reports hq failures (withStore s store)
  have hinert : Inert (withStore s store) t := by
    simpa only [ht] using Leads.forM (inert_report hq) failures (withStore s store)
  rw [discardSpill, perform_bind_ok (perform_get s), perform_bind_ok hp, perform_bind_ok ht]
  by_cases hpending : s.engine.spill.pending.length = 0
  · rw [logDiscarded, if_pos hpending]
    have hsame : store.spill = s.engine.spill := by rw [hspill, ← List.length_eq_zero_iff.1 hpending]
    have hall : Inert s t := trans_of Inert (inert_withStore hsame) hinert
    exact ⟨t, rfl, .of_nothing hpending hall, hall.stops⟩
  · rw [perform_logDiscarded hpending]
    exact ⟨_, rfl, .of_logged hpending hspill hinert, hinert.stops⟩

/-- **The last piece of a stop** discards what is pending. -/
theorem concludes_finishStop : Concludes (finishStop env) := by
  intro s
  right
  obtain ⟨t, hp, hdiscards, hstops⟩ := discards_discardSpill hq s
  have hinert : Inert t (entered .stopped t) := inert_enter .stopped t
  rw [finishStop, perform_bind_ok hp, perform_bind_ok (perform_enter .stopped t), signal,
    perform_bind_ok (gives_tell hq _ _).result]
  exact (hdiscards.inert hinert).ends (hinert.stops.trans hstops) env

theorem concludes_afterConsumer : Concludes (Engine.afterConsumer env) := by
  refine Concludes.after Leads.get fun s => ?_
  split
  · exact .of_inert (Leads.pure _)
  · exact concludes_finishStop hq

theorem concludes_afterSource : Concludes (afterSource env) := by
  refine Concludes.after Leads.get fun s => ?_
  dsimp only
  split
  · exact concludes_afterConsumer hq
  · split
    · exact .of_inert (Leads.bind (inert_change fun _ => ⟨rfl, rfl, rfl⟩) fun _ => Leads.pure _)
    · exact concludes_afterConsumer hq

theorem concludes_stop [Feed σ] : Concludes (Engine.stop env) := by
  refine Concludes.after Leads.get fun s => ?_
  split
  case h_3 => exact .of_inert (Leads.pure _)
  all_goals
    refine Concludes.after (inert_enter _) fun _ => Concludes.after Leads.get fun s => ?_
    cases s.engine.source with
    | none => exact concludes_afterSource hq
    | some source => exact .of_inert (Leads.bind (inert_change fun _ => ⟨rfl, rfl, rfl⟩) fun _ => Leads.pure _)

theorem concludes_stopSource [Feed σ] (announces : Bool) : Concludes (stopSource env announces) := by
  refine Concludes.after (inert_attempt (inert_onSource _ _)) fun r => ?_
  rcases r with f | _ | sent
  · exact Concludes.after (inert_report hq f) fun _ => concludes_afterSource hq
  · exact concludes_afterSource hq
  · exact Concludes.after (inert_hear hq sent) fun _ => concludes_afterSource hq

theorem concludes_awaitConsumer : Concludes (awaitConsumer env) := by
  refine Concludes.after Leads.get fun s => ?_
  cases s.engine.consumer with
  | broken g => exact .of_inert (Leads.throw g)
  | cancelled => exact .of_inert (Leads.throw _)
  | waiting | writing => exact .of_inert (Leads.pure _)
  | absent => exact concludes_afterConsumer hq
  | _ =>
    exact Concludes.after (inert_change fun _ => ⟨rfl, rfl, rfl⟩) fun _ => concludes_afterConsumer hq

end

/-! ### Acts -/

/-- What may happen to an engine. -/
inductive Act (σ : Type) where
  /-- A start begins. -/
  | start
  /-- A stop begins. -/
  | stop
  /-- A start or a stop goes on from where it stood. -/
  | goOn (call : EngineCall)
  /-- The source changes in any way, and sends a signal or none. -/
  | source (f : Source σ → Source σ) (sent : Option SourceSignal)
  /-- The consumer makes a step. -/
  | consume
  /-- An event is handled at once. -/
  | process (v : Value)
  /-- The oldest spilled values are reloaded. -/
  | reload

/-- What an act does. -/
def Act.run [Feed σ] [Drain κ] (env : Environment σ κ) : Act σ → EngineAction σ κ Unit
  | start => do let _ ← Engine.start env
  | stop => do let _ ← Engine.stop env
  | goOn call => do let _ ← proceed env call
  | source f sent => sourceStep env f sent
  | consume => Engine.consume env
  | process v => Engine.process env v
  | reload => do let _ ← Engine.reload env

/-- The session after an act, whatever comes of it. -/
def Act.after [Feed σ] [Drain κ] (env : Environment σ κ) (a : Act σ) (s : Session σ κ) : Session σ κ :=
  (perform (a.run env) s).2

/-- How many writes to the sink have returned from one session to the next; to a sink that was dropped or has just
been made, none. -/
def writesIn (s t : Session σ (Tallied κ)) : Nat := returned t - returned s

/-- A run from a session to another one, with the number of writes to the sink that returned in it. -/
inductive Run [Feed σ] [Drain κ] (env : Environment σ (Tallied κ)) (s : Session σ (Tallied κ)) :
    Nat → Session σ (Tallied κ) → Prop where
  /-- Nothing has happened. -/
  | refl : Run env s 0 s
  /-- One more act. -/
  | act {n : Nat} {t : Session σ (Tallied κ)} (h : Run env s n t) (a : Act σ) :
      Run env s (n + writesIn t (a.after env t)) (a.after env t)
  /-- Others change the world; only the engine tells its subscribers something. -/
  | others {n : Nat} {t : Session σ (Tallied κ)} (h : Run env s n t) (w : World) (hw : w.notices = t.world.notices) :
      Run env s n { t with world := w }

theorem timesStopped_le {s t : Session σ (Tallied κ)} (h : Fair s t) : timesStopped s ≤ timesStopped t :=
  h.told.sublist.countP_le

section

variable [Feed σ] [Drain κ] {env : Environment σ κ} (hq : env.Quiet)

include hq

/-- **What an act comes to.** -/
theorem act_cases (a : Act σ) (s : Session σ (Tallied κ)) :
    Calm s (a.after env.tallied s) ∨ Opens s (a.after env.tallied s) ∨ Ends s (a.after env.tallied s) := by
  have hq' : env.tallied.Quiet := hq
  have hend : ∀ {β : Type} (b : EngineAction σ (Tallied κ) β), (perform (do let _ ← b) s).2 = (perform b s).2 := by
    intro β b
    rw [perform_bind]
    rcases perform b s with ⟨_ | _, _⟩ <;> rfl
  have hconcludes : ∀ {b : EngineAction σ (Tallied κ) (Option EngineCall)}, Concludes b →
      Calm s (perform b s).2 ∨ Opens s (perform b s).2 ∨ Ends s (perform b s).2 :=
    fun h => (h s).elim (fun h => .inl h.toCalm) fun h => .inr (.inr h)
  unfold Act.after Act.run
  cases a with
  | start => exact hend (Engine.start _) ▸ .inr (.inl (opens_start hq' s))
  | stop => exact hend (Engine.stop _) ▸ hconcludes (concludes_stop hq')
  | goOn call =>
    refine hend (proceed _ call) ▸ ?_
    cases call with
    | startingSource => exact .inr (.inl (opens_startSource hq' s))
    | leavingConsumer f => exact .inr (.inl (opens_leaveConsumer hq' f s))
    | abandoningSink f =>
      exact .inr (.inl (Leads.bind (opens_of_inert (inert_closeSink hq')) (fun _ => opens_giveUp hq' f) s))
    | stoppingSource announces => exact hconcludes (concludes_stopSource hq' announces)
    | emptyingQueue => exact hconcludes (concludes_awaitConsumer hq')
    | closingSink => exact hconcludes (Concludes.after (inert_closeSink hq') fun _ => concludes_finishStop hq')
  | source f sent => exact .inl (inert_sourceStep hq' f sent s).toCalm
  | consume => exact .inl (calm_consume hq' s)
  | process v => exact .inl (calm_process hq' v s)
  | reload => exact hend (Engine.reload _) ▸ .inl (calm_reload hq' s)

/-- How far a run has come. -/
structure Progressed (s : Session σ (Tallied κ)) (writes : Nat) (t : Session σ (Tallied κ)) : Prop extends Fair s t where
  /-- As many writes are counted as have returned. -/
  written : total .processed t = total .processed s + writes
  /-- There is no warning before the end of a stop. -/
  warned : timesStopped t = timesStopped s → warned t = Engine.warned s

/-- **An act brings a run forward.** -/
theorem Progressed.act {s t : Session σ (Tallied κ)} {writes : Nat} (h : Progressed s writes t) (a : Act σ) :
    Progressed s (writes + writesIn t (a.after env.tallied t)) (a.after env.tallied t) := by
  have hle := timesStopped_le h.toFair
  have hbefore := h.written
  unfold writesIn
  rcases act_cases hq a t with hact | hact | hact
  · refine ⟨trans_of Fair h.toFair hact.toFair, ?_, fun hstops => ?_⟩
    · have hwritten := hact.written
      have hreturned := hact.returned
      omega
    · rw [hact.warned, h.warned (by rw [← hstops, hact.stops])]
  · refine ⟨trans_of Fair h.toFair hact.toFair, ?_, fun hstops => ?_⟩
    · have hprocessed := hact.processed
      have hreturned := hact.returned
      omega
    · rw [hact.warned, h.warned (by rw [← hstops, hact.stops])]
  · refine ⟨trans_of Fair h.toFair hact.toFair, ?_, fun hstops => ?_⟩
    · have hprocessed := hact.processed
      have hreturned := hact.returned
      omega
    · have hmore := hact.stops
      omega

/-- **A run goes forward.** -/
theorem Progressed.of_run {s t : Session σ (Tallied κ)} {writes : Nat} (h : Run env.tallied s writes t) :
    Progressed s writes t := by
  induction h with
  | refl => exact ⟨refl_of Fair s, (Int.add_zero _).symm, fun _ => rfl⟩
  | act _ a ih => exact ih.act hq a
  | @others n t _ w hw ih =>
    have hsame : Fair t { t with world := w } :=
      ⟨by simp only [balance, hw], fun _ => Int.le_refl _, by rw [hw]⟩
    refine ⟨trans_of Fair ih.toFair hsame, ih.written, fun hstops => ih.warned ?_⟩
    simpa only [timesStopped, hw] using hstops

end

/-! ### Runs of a fresh engine -/

/-- Nothing has been counted, logged or spilled. -/
structure Fresh (s : Session σ κ) : Prop where
  /-- All counters are at zero. -/
  metrics : s.engine.log.metrics = RunLog.zeroMetrics
  /-- The log is empty. -/
  entries : s.engine.log.entries = []
  /-- Nothing is pending. -/
  pending : s.engine.spill.pending = []

/-- What a new engine is. -/
theorem create_ok {stages : List Stage} {working : Text} {config : Fields} {settings : Option Settings}
    {e : Engine σ κ} (h : create stages working config settings = .ok e) :
    ∃ (chosen : Settings) (fingerprint : Text), e =
      { stages := stages, settings := chosen, log := ⟨config, fingerprint, [], [], RunLog.zeroMetrics⟩, state := .idle,
        source := none, sink := none, lastError := none, queue := none, consumer := .absent, ended := none, buffer := [],
        spill := Spill.none ((Path.ofText chosen.spilloverDir).absoluteIn working) } := by
  unfold create at h
  cases settings
  all_goals
    obtain ⟨chosen, -, h⟩ := ok_of_bind_ok h
    obtain ⟨log, hlog, h⟩ := ok_of_bind_ok h
    obtain ⟨fingerprint, -, hlog⟩ := ok_of_bind_ok hlog
    cases hlog
    cases h
    exact ⟨chosen, fingerprint, rfl⟩

/-- An engine that has just been created is fresh. -/
theorem fresh_create {stages : List Stage} {working : Text} {config : Fields} {settings : Option Settings}
    {e : Engine σ κ} (h : create stages working config settings = .ok e) (w : World) : Fresh ⟨e, w⟩ := by
  obtain ⟨chosen, fingerprint, rfl⟩ := create_ok h
  exact ⟨rfl, rfl, rfl⟩

/-- It is idle with the stages it was given, it has no consumer, and its buffer is empty. -/
theorem idle_create {stages : List Stage} {working : Text} {config : Fields} {settings : Option Settings}
    {e : Engine σ κ} (h : create stages working config settings = .ok e) :
    e.state = .idle ∧ e.stages = stages ∧ e.consumer = .absent ∧ e.buffer = [] := by
  obtain ⟨chosen, fingerprint, rfl⟩ := create_ok h
  exact ⟨rfl, rfl, rfl, rfl⟩

/-- The books of a run, with what was told in it. -/
structure Reconciled (s : Session σ (Tallied κ)) (writes : Nat) (t : Session σ (Tallied κ)) (told : List Notice) :
    Prop where
  /-- What was told. -/
  notices : t.world.notices = s.world.notices ++ told
  /-- As many errors are counted as were told. -/
  errorsTold : total .errors t = told.countP Notice.isError
  /-- As many errors are counted as were logged. -/
  errorsLogged : total .errors t = (t.engine.log.entriesOf (some "error")).length
  /-- As many processed values are counted as were told. -/
  processed : total .processed t = told.countP Notice.isProcessed
  /-- As many processed values are counted as writes to the sink returned. -/
  written : total .processed t = writes
  /-- As many rejections are counted as were told. -/
  filtered : total .filtered t = told.countP Notice.isFiltered
  /-- As many spill files are counted as were told. -/
  spillFiles : total .spillFiles t = told.countP Notice.isSpillover
  /-- As many spilled values are counted as were told. -/
  spilledEvents : total .spilledEvents t = (told.map Notice.spilled).sum
  /-- A spilled value was reloaded, is pending, or was discarded at the end of a stop. -/
  accounted : total .spilledEvents t =
    total .reloadedEvents t + t.engine.spill.pendingEvents + ((warned t).map LogEntry.discarded).sum
  /-- Before that, it was reloaded or is pending. -/
  undiscarded : told.countP Notice.isStopped = 0 →
    warned t = [] ∧ total .spilledEvents t = total .reloadedEvents t + t.engine.spill.pendingEvents

theorem Fresh.total {s : Session σ κ} (h : Fresh s) (c : RunLog.Counter) : total c s = 0 := by
  rw [Engine.total, RunLog.counter, h.metrics]
  cases c <;> rfl

theorem Fresh.entriesOf {s : Session σ κ} (h : Fresh s) (level : Text) : s.engine.log.entriesOf (some level) = [] := by
  simp [RunLog.entriesOf, h.entries]

theorem Progressed.reconciled {s t : Session σ (Tallied κ)} {writes : Nat} (h : Progressed s writes t) (hs : Fresh s) :
    ∃ told, Reconciled s writes t told := by
  obtain ⟨told, htold⟩ := h.told
  have hbalance := h.balance
  have hwritten := h.written
  have hstops := h.warned
  have hzero := hs.total
  have hpending : s.engine.spill.pendingEvents = 0 := by rw [Spill.pendingEvents_eq_sum, hs.pending]; rfl
  unfold Engine.total at hzero
  simp only [balance, balanceOf, Balance.mk.injEq, ← htold, List.countP_append, List.map_append, List.sum_append,
    Nat.cast_add, hs.entriesOf, List.length_nil, List.map_nil, List.sum_nil, hzero, hpending] at hbalance
  obtain ⟨herrors, hlogged, hprocessed, hfiltered, hfiles, hspilled, haccounted⟩ := hbalance
  have haccounts : Engine.total .spilledEvents t =
      Engine.total .reloadedEvents t + t.engine.spill.pendingEvents + ((Engine.warned t).map LogEntry.discarded).sum := by
    unfold Engine.total Engine.warned
    omega
  have hunwarned : told.countP Notice.isStopped = 0 → Engine.warned t = [] := by
    intro hnone
    rw [hstops (by simp [timesStopped, ← htold, hnone]), Engine.warned, hs.entriesOf]
  refine ⟨told, htold.symm, ?_, ?_, ?_, ?_, ?_, ?_, ?_, haccounts, fun hnone => ⟨hunwarned hnone, ?_⟩⟩
  · unfold Engine.total; omega
  · unfold Engine.total; omega
  · unfold Engine.total; omega
  · unfold Engine.total at hwritten ⊢
    rw [hwritten, hzero, Int.zero_add]
  · unfold Engine.total; omega
  · unfold Engine.total; omega
  · unfold Engine.total; omega
  · rw [haccounts, hunwarned hnone, List.map_nil, List.sum_nil, Nat.cast_zero, Int.add_zero]

/-- **The books of a run agree.** In a run of a fresh engine whose subscribers do not fail, the counters are what
was told, logged and written, and every spilled value is accounted for. From then on no counter ever goes down. An act
adds a warning only where it brings a stop to its end: then it names all that was pending. -/
theorem run_accounts [Feed σ] [Drain κ] {env : Environment σ κ} (hq : env.Quiet)
    {s t : Session σ (Tallied κ)} {writes : Nat} (hs : Fresh s)
    (h : Run env.tallied s writes t) :
    (∃ told, Reconciled s writes t told) ∧
      (∀ more u, Run env.tallied t more u → ∀ c, total c t ≤ total c u) ∧
      ∀ a : Act σ, Ends t (a.after env.tallied t) ∨
        (timesStopped (a.after env.tallied t) = timesStopped t ∧ warned (a.after env.tallied t) = warned t ∧
          (a.after env.tallied t).engine.log.warnings = t.engine.log.warnings) := by
  refine ⟨(Progressed.of_run hq h).reconciled hs, fun more u hu => (Progressed.of_run hq hu).totals, fun a => ?_⟩
  rcases act_cases hq a t with hact | hact | hact
  · exact .inr ⟨hact.stops, hact.warned, hact.warnings⟩
  · exact .inr ⟨hact.stops, hact.warned, hact.warnings⟩
  · exact .inl hact

/-! ### A run in memory -/

/-- The session after acts, one after the other. -/
def afterActs [Feed σ] [Drain κ] (env : Environment σ κ) (acts : List (Act σ)) (s : Session σ κ) : Session σ κ :=
  acts.foldl (fun s a => a.after env s) s

theorem run_afterActs [Feed σ] [Drain κ] {env : Environment σ (Tallied κ)} {s t : Session σ (Tallied κ)} {writes : Nat}
    (h : Run env s writes t) (acts : List (Act σ)) : ∃ more, Run env s more (afterActs env acts t) := by
  induction acts generalizing writes t with
  | nil => exact ⟨writes, h⟩
  | cons a acts ih => exact ih (h.act a)

/-- A running engine with a sink in memory: a window of three values in a buffer for one. -/
def tightBuffer : Session MemorySource (Tallied MemorySink) where
  engine :=
    { stages := [.aggregate ⟨some 3, none⟩ (fun held => .ok (.array held)) none]
      settings := Settings.default
      log := ⟨[], [], [], [], RunLog.zeroMetrics⟩
      state := .running
      source := none
      sink := some ⟨⟨[], .null, false⟩, 0⟩
      lastError := none
      queue := some ⟨[], 0⟩
      consumer := .waiting
      ended := some false
      buffer := []
      spill := Spill.none ⟨"/work/", ["spilled"]⟩ }
  world := ⟨.empty 1, ⟨.empty "/work", [], []⟩, ⟨[]⟩, 1, []⟩

/-- Two events and an error come, the events are handled, and a stop comes to the sink. -/
def twoEvents : List (Act MemorySource) :=
  [.source id (some (.data (.int 1))), .source id (some (.data (.int 2))), .source id (some (.error noSink)),
    .consume, .consume, .stop, .consume, .goOn .emptyingQueue]

/-- The first event is spilled and still pending; the warning at the end of the stop names it and its file. -/
theorem run_accounts_tight_buffer :
    total .errors (afterActs unheard.tallied twoEvents tightBuffer) = 1 ∧
      total .spilledEvents (afterActs unheard.tallied twoEvents tightBuffer) = 1 ∧
      (afterActs unheard.tallied twoEvents tightBuffer).engine.spill.pendingEvents = 1 ∧
      warned ((Act.goOn .closingSink).after unheard.tallied (afterActs unheard.tallied twoEvents tightBuffer)) =
        [discardEntry 1 1] := by
  obtain ⟨writes, hrun⟩ := run_afterActs (@Run.refl _ _ _ _ unheard.tallied tightBuffer) twoEvents
  have hquiet : unheard.Quiet := fun _ _ => rfl
  obtain ⟨⟨told, hbooks⟩, -, hacts⟩ := run_accounts hquiet ⟨rfl, rfl, rfl⟩ hrun
  generalize ht : afterActs unheard.tallied twoEvents tightBuffer = t at *
  have hspilled : total .spilledEvents t = 1 := by
    rw [← ht]
    decide +kernel
  have hreloaded : total .reloadedEvents t = 0 := by
    rw [← ht]
    decide +kernel
  have hfiles : t.engine.spill.pending.length = 1 := by
    rw [← ht]
    decide +kernel
  have hstopped : timesStopped t = 0 := by
    rw [← ht]
    decide +kernel
  have hends : timesStopped ((Act.goOn .closingSink).after unheard.tallied t) = 1 := by
    rw [← ht]
    decide +kernel
  obtain ⟨hwarned, hbalance⟩ := hbooks.undiscarded (by
    rw [timesStopped, hbooks.notices, List.countP_append] at hstopped
    omega)
  have hpending : t.engine.spill.pendingEvents = 1 := by omega
  refine ⟨?_, hspilled, hpending, ?_⟩
  · rw [← ht]
    decide +kernel
  · rcases hacts (.goOn .closingSink) with hact | ⟨hsame, -⟩
    · rw [hact.warned, hwarned, pendingWarning?, hfiles, hpending]
      rfl
    · omega

end Engine

end EventPipeline
