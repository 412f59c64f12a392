import EventPipeline.Engine.Lifecycle
import EventPipeline.Proofs.Engine.Confined
import Mathlib.Data.List.Basic

/-!
# The books of an engine

A run keeps count of itself in several places: its counters, the entries of its log, what the subscribers are
told, the pending spill files, and the sink, which knows best how many writes returned. The *balance* of a session
is by how much these places differ. As long as no subscriber fails, no step of an engine changes it, and no counter
goes down, whatever else fails (`Fair`). Up to the last piece of a stop, nothing is warned of either (`Calm`).

To count the writes that returned, a sink is wrapped (`Tallied`). The wrapper changes nothing else.
-/

namespace EventPipeline

/-! ### Counters and entries -/

namespace RunLog

@[simp] theorem counter_count (r : RunLog) (c d : Counter) (n : Nat) :
    (r.count c n).counter d = r.counter d + if d = c then (n : Int) else 0 := by
  by_cases h : d = c
  · rw [h, counter_count_self, if_pos rfl]
  · rw [counter_count_of_ne r (Ne.symm h), if_neg h, Int.add_zero]

@[simp] theorem counter_log (r : RunLog) (e : LogEntry) (c : Counter) : (r.log e).counter c = r.counter c := rfl

@[simp] theorem counter_warn (r : RunLog) (stage message : Text) (c : Counter) :
    (r.warn stage message).counter c = r.counter c := rfl

@[simp] theorem entriesOf_count (r : RunLog) (c : Counter) (n : Nat) (level : Option Text) :
    (r.count c n).entriesOf level = r.entriesOf level := by
  cases level <;> rfl

@[simp] theorem entriesOf_warn (r : RunLog) (stage message : Text) (level : Option Text) :
    (r.warn stage message).entriesOf level = r.entriesOf level := by
  cases level <;> rfl

@[simp] theorem entriesOf_log (r : RunLog) (e : LogEntry) (level : Text) :
    (r.log e).entriesOf (some level) = r.entriesOf (some level) ++ if e.level = level then [e] else [] := by
  simp only [entriesOf, log, List.filter_append, List.filter_cons, List.filter_nil, decide_eq_true_eq]

@[simp] theorem warnings_log (r : RunLog) (e : LogEntry) : (r.log e).warnings = r.warnings := rfl

@[simp] theorem warnings_count (r : RunLog) (c : Counter) (n : Nat) : (r.count c n).warnings = r.warnings := rfl

end RunLog

theorem Spill.pendingEvents_eq_sum (s : Spill) : s.pendingEvents = (s.pending.map SpillRecord.count).sum := by
  rw [pendingEvents]
  induction s.pending with
  | nil => rfl
  | cons r rs ih => rw [List.foldr_cons, ih, List.map_cons, List.sum_cons]

/-! ### Tallied sinks -/

/-- A sink together with the number of its writes that returned. -/
structure Tallied (κ : Type) where
  /-- The sink. -/
  sink : κ
  /-- The number of writes that returned. -/
  returned : Nat

namespace Tallied

variable {κ α : Type}

/-- A step on the sink alone. -/
def pass (a : SinkAction κ α) : SinkAction (Tallied κ) α := do
  let (k, _) ← get
  SinkAction.onPart k.sink (fun sink => ⟨sink, k.returned⟩) a

instance [Drain κ] : Drain (Tallied κ) where
  write v := do
    pass (Drain.write v)
    modify fun (k, host) => (⟨k.sink, k.returned + 1⟩, host)
  close := pass Drain.close

theorem perform_pass (a : SinkAction κ α) (k : Tallied κ) (host : Host) :
    perform (pass a) (k, host) =
      ((perform a (k.sink, host)).1,
        ⟨(perform a (k.sink, host)).2.1, k.returned⟩, (perform a (k.sink, host)).2.2) := by
  rw [pass, perform_bind_ok (perform_get (k, host))]
  exact SinkAction.perform_onPart k.sink _ a k host

/-- A write is tallied just if it returns. -/
theorem perform_write [Drain κ] (v : Value) (k : Tallied κ) (host : Host) :
    ∃ r k' host', perform (Drain.write v) (k, host) = (r, k', host') ∧
      k'.returned = k.returned + if r.isOk then 1 else 0 := by
  have hpass := perform_pass (Drain.write v) k host
  rcases hp : perform (Drain.write v : SinkAction κ Unit) (k.sink, host) with ⟨f | u, k', host'⟩
  · rw [hp] at hpass
    refine ⟨.error f, ⟨k', k.returned⟩, host', ?_, rfl⟩
    exact (perform_bind _ _ _).trans (by rw [hpass])
  · rw [hp] at hpass
    exact ⟨.ok (), ⟨k', k.returned + 1⟩, host', perform_bind_ok hpass, rfl⟩

end Tallied

/-- The environment with tallied sinks, none of which has taken a write when it is made. -/
def Environment.tallied {σ κ : Type} (env : Environment σ κ) : Environment σ (Tallied κ) :=
  ⟨env.registry.map id (⟨·, 0⟩), env.subscriber⟩

/-! ### The balance -/

namespace Notice

/-- An error is told. -/
def isError : Notice → Bool
  | engine (.error _) => true
  | _ => false

/-- A write is told. -/
def isProcessed : Notice → Bool
  | engine (.processed _) => true
  | _ => false

/-- A rejection is told. -/
def isFiltered : Notice → Bool
  | engine (.filtered _) => true
  | _ => false

/-- A spill is told. -/
def isSpillover : Notice → Bool
  | engine (.spillover ..) => true
  | _ => false

/-- The end of a stop is told. -/
def isStopped : Notice → Bool
  | engine .stopped => true
  | _ => false

/-- How many values are told to be spilled. -/
def spilled : Notice → Nat
  | engine (.spillover _ count) => count
  | _ => 0

end Notice

/-- How many values an entry says were discarded. -/
def LogEntry.discarded (e : LogEntry) : Nat :=
  match e.extra.find? (.name "events") with
  | some (.number (.int n)) => n.toNat
  | _ => 0

/-- By how much the places in which a run keeps count differ. -/
@[ext] structure Balance where
  /-- Errors counted beyond those told. -/
  errorsTold : Int
  /-- Errors counted beyond those logged. -/
  errorsLogged : Int
  /-- Writes counted beyond those told. -/
  processed : Int
  /-- Rejections counted beyond those told. -/
  filtered : Int
  /-- Spill files counted beyond those told. -/
  spillFiles : Int
  /-- Spilled values counted beyond those told. -/
  spilledEvents : Int
  /-- Spilled values beyond those that were reloaded, that are pending, or that were discarded. -/
  unaccounted : Int

/-- The balance of a log, of what was told, and of spilled values. -/
def balanceOf (log : RunLog) (notices : List Notice) (spill : Spill) : Balance where
  errorsTold := log.counter .errors - notices.countP Notice.isError
  errorsLogged := log.counter .errors - (log.entriesOf (some "error")).length
  processed := log.counter .processed - notices.countP Notice.isProcessed
  filtered := log.counter .filtered - notices.countP Notice.isFiltered
  spillFiles := log.counter .spillFiles - notices.countP Notice.isSpillover
  spilledEvents := log.counter .spilledEvents - (notices.map Notice.spilled).sum
  unaccounted := log.counter .spilledEvents - log.counter .reloadedEvents - spill.pendingEvents
    - ((log.entriesOf (some "warning")).map LogEntry.discarded).sum

variable {σ κ α : Type}

namespace Engine

/-- The value of a counter. -/
def total (c : RunLog.Counter) (s : Session σ κ) : Int := s.engine.log.counter c

/-- The balance of a session. -/
def balance (s : Session σ κ) : Balance := balanceOf s.engine.log s.world.notices s.engine.spill

/-- The entries of warnings in the log. -/
def warned (s : Session σ κ) : List LogEntry := s.engine.log.entriesOf (some "warning")

/-- How often the subscribers have been told that the engine has stopped. -/
def timesStopped (s : Session σ κ) : Nat := s.world.notices.countP Notice.isStopped

/-- How many writes to the sink have returned. -/
def returned (s : Session σ (Tallied κ)) : Nat := (s.engine.sink.map Tallied.returned).getD 0

/-- The balance stays, no counter goes down, and nothing that was told is taken back. -/
structure Fair (s t : Session σ κ) : Prop where
  /-- The balance stays. -/
  balance : balance t = Engine.balance s
  /-- No counter goes down. -/
  totals : ∀ c, total c s ≤ total c t
  /-- What was told stays. -/
  told : s.world.notices <+: t.world.notices

instance : IsPreorder (Session σ κ) Fair where
  refl _ := ⟨rfl, fun _ => Int.le_refl _, List.prefix_refl _⟩
  trans _ _ _ h h' := ⟨h'.balance.trans h.balance, fun c => Int.le_trans (h.totals c) (h'.totals c),
    h.told.trans h'.told⟩

/-- Fair, with nothing warned of and no stop that ends. Of the writes counted, as many have returned. -/
structure Calm (s t : Session σ (Tallied κ)) : Prop extends Fair s t where
  /-- There is no new warning in the log. -/
  warned : warned t = Engine.warned s
  /-- There is no new warning. -/
  warnings : t.engine.log.warnings = s.engine.log.warnings
  /-- No stop has ended. -/
  stops : timesStopped t = timesStopped s
  /-- Of the writes counted, as many have returned. -/
  written : total .processed t - returned t = total .processed s - returned s
  /-- No write is taken back. -/
  returned : Engine.returned s ≤ Engine.returned t

instance : IsPreorder (Session σ (Tallied κ)) Calm where
  refl s := ⟨refl_of Fair s, rfl, rfl, rfl, rfl, Nat.le_refl _⟩
  trans _ _ _ h h' := ⟨trans_of Fair h.toFair h'.toFair, h'.warned.trans h.warned, h'.warnings.trans h.warnings,
    h'.stops.trans h.stops, h'.written.trans h.written, h.returned.trans h'.returned⟩

/-- Calm, with nothing spilled and nothing written. -/
structure Inert (s t : Session σ (Tallied κ)) : Prop extends Calm s t where
  /-- The spilled values stay. -/
  spill : t.engine.spill = s.engine.spill
  /-- No write is counted. -/
  processed : total .processed t = total .processed s

instance : IsPreorder (Session σ (Tallied κ)) Inert where
  refl s := ⟨refl_of Calm s, rfl, rfl⟩
  trans _ _ _ h h' := ⟨trans_of Calm h.toCalm h'.toCalm, h'.spill.trans h.spill, h'.processed.trans h.processed⟩

theorem calm_of_inert {a : EngineAction σ (Tallied κ) α} (h : Leads Inert a) : Leads Calm a :=
  h.mono fun _ _ hst => hst.toCalm

/-! ### Small steps -/

/-- What the books are made of is the same. -/
theorem Inert.of_eq {s t : Session σ (Tallied κ)} (hlog : t.engine.log = s.engine.log)
    (hnotices : t.world.notices = s.world.notices) (hspill : t.engine.spill = s.engine.spill)
    (hsink : returned t = returned s) : Inert s t where
  balance := by rw [balance, balance, hlog, hnotices, hspill]
  totals c := by rw [total, total, hlog]
  told := by rw [hnotices]
  warned := by rw [Engine.warned, Engine.warned, hlog]
  warnings := by rw [hlog]
  stops := by rw [timesStopped, timesStopped, hnotices]
  written := by rw [total, total, hlog, hsink]
  returned := Nat.le_of_eq hsink.symm
  spill := hspill
  processed := by rw [total, total, hlog]

theorem inert_change {f : Engine σ (Tallied κ) → Engine σ (Tallied κ)}
    (h : ∀ e, (f e).log = e.log ∧ (f e).spill = e.spill ∧ (f e).sink = e.sink) : Leads Inert (change f) := by
  refine Leads.modify fun s => .of_eq (h s.engine).1 rfl (h s.engine).2.1 ?_
  rw [returned, returned, (h s.engine).2.2]

theorem perform_count (c : RunLog.Counter) (n : Nat) (s : Session σ κ) :
    perform (count c n) s = (.ok (), { s with engine.log := s.engine.log.count c n }) := rfl

theorem perform_record_eq (stage level message : Text) (extra : Fields) (s : Session σ κ) :
    perform (record stage level message extra) s =
      (.ok (), { s with engine.log := s.engine.log.log ⟨stage, level, message, extra⟩ }) := rfl

theorem inert_attempt {a : EngineAction σ (Tallied κ) α} (h : Leads Inert a) : Leads Inert (attempt a) := Leads.lift h

/-- An entry is made that is neither an error nor a warning. -/
theorem inert_record {stage level message : Text} {extra : Fields} (he : level ≠ "error") (hw : level ≠ "warning") :
    Leads Inert (record stage level message extra : EngineAction σ (Tallied κ) Unit) := by
  refine Leads.modify fun s =>
    ⟨⟨⟨?_, fun c => Int.le_refl _, List.prefix_refl _⟩, ?_, rfl, rfl, rfl, Nat.le_refl _⟩, rfl, rfl⟩
  · simp [balance, balanceOf, he, hw]
  · simp [warned, hw]

theorem inert_count_received (n : Nat) : Leads Inert (count .received n : EngineAction σ (Tallied κ) Unit) := by
  refine Leads.modify fun s => ⟨⟨⟨?_, fun c => ?_, List.prefix_refl _⟩, ?_, rfl, rfl, ?_, Nat.le_refl _⟩, rfl, ?_⟩
  · simp [balance, balanceOf]
  · simp only [total, RunLog.counter_count]
    split_ifs <;> omega
  · simp [warned]
  · simp [total, returned]
  · simp [total]

theorem inert_enter (b : EngineState) : Leads Inert (enter b : EngineAction σ (Tallied κ) Unit) :=
  Leads.bind Leads.get fun _ => Leads.bind (inert_change fun _ => ⟨rfl, rfl, rfl⟩) fun _ =>
    inert_record (by decide) (by decide)

theorem inert_onAccumulator (action : StateM Accumulator α) :
    Leads Inert (onAccumulator action : EngineAction σ (Tallied κ) α) := fun _ => .of_eq rfl rfl rfl rfl

theorem inert_onSource (step : Source σ → Except Failure α × Source σ) (otherwise : α) :
    Leads Inert (onSource step otherwise : EngineAction σ (Tallied κ) α) := by
  refine Leads.bind Leads.get fun s => ?_
  cases s.engine.source with
  | none => exact Leads.pure _
  | some source =>
    refine Leads.bind (inert_change fun _ => ⟨rfl, rfl, rfl⟩) fun _ => ?_
    cases (step source).1 with
    | ok a => exact Leads.pure _
    | error f => exact Leads.throw _

/-! ### Spilled values -/

/-- An attempt at the spilled values touches them and the files, and nothing else. -/
theorem perform_attempt_onSpill (action : Spilling α) (s : Session σ (Tallied κ)) :
    perform (attempt (onSpill action)) s =
      (.ok (perform action s.store).1, withStore s (perform action s.store).2) := by
  rw [attempt, perform_lift, perform_onSpill]

theorem inert_withStore {s : Session σ (Tallied κ)} {t : SpillState} (h : t.spill = s.engine.spill) :
    Inert s (withStore s t) :=
  .of_eq rfl rfl h rfl

/-- A spill adds its values to what is pending. -/
theorem pending_spillIfNeeded {capacity : Int} {s t : SpillState} {r : Except Failure (Option SpillRecord)}
    (h : perform (Spill.spillIfNeeded capacity) s = (r, t)) :
    ((∀ q, r ≠ .ok (some q)) → t.spill = s.spill) ∧
      ∀ q, r = .ok (some q) → t.spill.pendingEvents = s.spill.pendingEvents + q.count := by
  rcases Spill.spillIfNeeded_cases capacity s with ⟨-, hp⟩ | ⟨-, f, files, -, hp⟩ | ⟨-, files, -, hp⟩
  all_goals
    rw [hp] at h
    cases h
  · exact ⟨fun _ => rfl, by simp⟩
  · exact ⟨fun _ => rfl, by simp⟩
  · refine ⟨fun hnot => absurd rfl (hnot _), ?_⟩
    rintro _ ⟨⟩
    simp [Spill.pendingEvents_eq_sum, Spill.afterSpill, Spill.nextRecord]

/-- A reload takes its values from what is pending. -/
theorem pending_reload {s t : SpillState} {r : Except Failure (Option SpillRecord)}
    (h : perform Spill.reload s = (r, t)) :
    ((∀ q, r ≠ .ok (some q)) → t.spill = s.spill) ∧
      ∀ q, r = .ok (some q) → s.spill.pendingEvents = q.count + t.spill.pendingEvents := by
  rcases Spill.reload_cases s with hp | ⟨f, hp⟩ | ⟨q, rest, u, hp, hpending, hspill⟩
  all_goals
    rw [hp] at h
    cases h
  · exact ⟨fun _ => rfl, by simp⟩
  · exact ⟨fun _ => rfl, by simp⟩
  · refine ⟨fun hnot => absurd rfl (hnot _), ?_⟩
    rintro _ ⟨⟩
    rw [Spill.pendingEvents_eq_sum, Spill.pendingEvents_eq_sum, hpending, hspill, List.map_cons, List.sum_cons]

/-! ### What is told -/

@[simp] theorem error_ne_warning : ("error" : Text) ≠ "warning" := by decide

@[simp] theorem info_ne_error : ("info" : Text) ≠ "error" := by decide

@[simp] theorem info_ne_warning : ("info" : Text) ≠ "warning" := by decide

@[simp] theorem warning_ne_error : ("warning" : Text) ≠ "error" := by decide

@[simp] theorem engine_withTold (env : Environment σ κ) (n : Notice) (s : Session σ κ) :
    (withTold env n s).engine = s.engine := rfl

@[simp] theorem notices_withTold (env : Environment σ κ) (n : Notice) (s : Session σ κ) :
    (withTold env n s).world.notices = s.world.notices ++ [n] := rfl

@[simp] theorem returned_withTold (env : Environment σ (Tallied κ)) (n : Notice) (s : Session σ (Tallied κ)) :
    returned (withTold env n s) = returned s := rfl

/-- A log and a notice that fit together keep the balance. -/
theorem calm_booked {s t : Session σ (Tallied κ)} {n : Notice} (hnotices : t.world.notices = s.world.notices ++ [n])
    (hbalance : balance t = balance s) (htotals : ∀ c, total c s ≤ total c t) (hwarned : warned t = warned s)
    (hwarnings : t.engine.log.warnings = s.engine.log.warnings) (hn : n.isStopped = false)
    (hwritten : total .processed t - returned t = total .processed s - returned s)
    (hreturned : returned s ≤ returned t) : Calm s t where
  balance := hbalance
  totals := htotals
  told := hnotices ▸ List.prefix_append _ _
  warned := hwarned
  warnings := hwarnings
  stops := by simp [timesStopped, hnotices, hn]
  written := hwritten
  returned := hreturned

theorem counter_le_count (r : RunLog) (c d : RunLog.Counter) (n : Nat) : r.counter d ≤ (r.count c n).counter d := by
  rw [RunLog.counter_count]
  split_ifs <;> omega

variable {env : Environment σ (Tallied κ)} (hq : env.Quiet)

include hq

theorem inert_signal {sig : EngineSignal} (h : sig = .started ∨ sig = .finished) : Leads Inert (signal env sig) := by
  intro s
  rw [signal, (gives_tell hq _ s).result]
  refine ⟨⟨⟨?_, fun c => Int.le_refl _, List.prefix_append _ _⟩, rfl, rfl, ?_, rfl, Nat.le_refl _⟩, rfl, rfl⟩
  all_goals rcases h with rfl | rfl <;>
    simp [balance, balanceOf, timesStopped, withTold, Notice.isError, Notice.isProcessed, Notice.isFiltered,
      Notice.isSpillover, Notice.isStopped, Notice.spilled]

theorem perform_report (f : Failure) (s : Session σ (Tallied κ)) : ∃ e : LogEntry, e.level = "error" ∧
    perform (report env f) s = (.ok (), withTold env (.engine (.error f))
      { s with engine.lastError := some f, engine.log := (s.engine.log.count .errors 1).log e }) :=
  ⟨_, rfl, (gives_tell hq _ _).result⟩

/-- **An error is counted, logged and told.** -/
theorem inert_report (f : Failure) : Leads Inert (report env f) := by
  intro s
  obtain ⟨e, he, hp⟩ := perform_report hq f s
  rw [hp]
  refine ⟨calm_booked rfl ?_ (fun c => counter_le_count _ _ c _) ?_ rfl rfl ?_ (Nat.le_refl _), rfl, ?_⟩
  · ext <;> simp [balance, balanceOf, he, Notice.isError, Notice.isProcessed,
      Notice.isFiltered, Notice.isSpillover, Notice.spilled]
  · simp [warned, he]
  · simp [total, returned]
  · simp [total]

/-- **A rejection is counted and told.** -/
theorem calm_filtered (v : Value) : Leads Calm (do count .filtered 1; signal env (.filtered v)) := by
  intro s
  rw [perform_bind_ok (perform_count _ _ s), signal, (gives_tell hq _ _).result]
  refine calm_booked rfl ?_ (fun c => counter_le_count _ _ c _) ?_ rfl rfl ?_ (Nat.le_refl _)
  · ext <;> simp [balance, balanceOf, Notice.isError, Notice.isProcessed, Notice.isFiltered,
      Notice.isSpillover, Notice.spilled]
  · simp [warned]
  · simp [total, returned]

/-- **A write that returns is counted and told**, and one that does not is reported. -/
theorem calm_deliver [Drain κ] (v : Value) : Leads Calm (deliver env v) := by
  intro s
  have hp : ∃ r t, perform (attempt (onSink (Drain.write v))) s = (.ok r, t) ∧ t.engine.log = s.engine.log ∧
      t.world.notices = s.world.notices ∧ t.engine.spill = s.engine.spill ∧
      returned t = returned s + if r.isOk then 1 else 0 := by
    rw [attempt, perform_lift, perform_onSink]
    cases hk : s.engine.sink with
    | none => exact ⟨.error noSink, s, rfl, rfl, rfl, rfl, rfl⟩
    | some k =>
      obtain ⟨r, k', host', hw, hreturned⟩ := Tallied.perform_write v k s.world.host
      refine ⟨r, withSink s k' host', by simp only [hw], rfl, rfl, rfl, ?_⟩
      simpa [returned, withSink, hk] using hreturned
  obtain ⟨r, t, hp, hlog, hnotices, hspill, hreturned⟩ := hp
  rw [deliver, perform_bind_ok hp]
  cases r with
  | error f => exact trans_of Calm (Inert.of_eq hlog hnotices hspill hreturned).toCalm (inert_report hq _ t).toCalm
  | ok _ =>
    dsimp only
    rw [perform_bind_ok (perform_count _ _ t), signal, (gives_tell hq _ _).result]
    generalize hu : ({ t with engine.log := t.engine.log.count .processed 1 } : Session σ (Tallied κ)) = u
    have hulog : u.engine.log = s.engine.log.count .processed 1 := by rw [← hu, ← hlog]
    have hunotices : u.world.notices = s.world.notices := by rw [← hu, ← hnotices]
    have huspill : u.engine.spill = s.engine.spill := by rw [← hu, ← hspill]
    have hureturned : returned u = returned s + 1 := by
      rw [← hu]
      exact hreturned
    refine calm_booked (n := .engine (.processed v)) (by simp [hunotices]) ?_ (fun c => ?_) ?_ ?_ rfl ?_ ?_
    · ext <;> simp [balance, balanceOf, hulog, hunotices, huspill, Notice.isError, Notice.isProcessed,
        Notice.isFiltered, Notice.isSpillover, Notice.spilled]
    · simpa only [total, engine_withTold, hulog] using counter_le_count _ _ c _
    · simp [warned, hulog]
    · simp [hulog]
    · simp [total, hulog, hureturned]
    · simp [hureturned]

theorem inert_closeSink [Drain κ] : Leads Inert (closeSink env) := by
  refine Leads.bind (inert_attempt fun s => ?_) fun r => ?_
  · rw [perform_onSink]
    cases hk : s.engine.sink with
    | none => exact refl_of Inert s
    | some k =>
      refine .of_eq rfl rfl rfl ?_
      rw [returned, returned, hk]
      exact congrArg (fun p : _ × _ × _ => p.2.1.returned) (Tallied.perform_pass Drain.close k s.world.host)
  · cases r with
    | ok _ => exact Leads.pure _
    | error f => exact inert_report hq _

/-! ### Spills and reloads -/

/-- **A spill is counted and told**, with the number of its values, and a write that failed is reported. -/
theorem calm_checkSpill : Leads Calm (checkSpill env) := by
  refine Leads.get_bind fun s => ?_
  rw [perform_bind_ok (perform_attempt_onSpill _ s)]
  rcases hp : perform (Spill.spillIfNeeded s.world.definition.capacity) s.store with ⟨r, t⟩
  obtain ⟨hstill, hmoved⟩ := pending_spillIfNeeded hp
  rcases r with f | _ | r
  · exact trans_of Calm (inert_withStore (hstill (by simp))).toCalm (inert_report hq _ _).toCalm
  · exact (inert_withStore (hstill (by simp))).toCalm
  · have hspill : t.spill.pendingEvents = s.engine.spill.pendingEvents + r.count := hmoved r rfl
    dsimp only
    rw [perform_bind_ok (perform_count _ _ _), perform_bind_ok (perform_count _ _ _),
      perform_bind_ok (perform_record_eq _ _ _ _ _), signal, (gives_tell hq _ _).result]
    refine calm_booked (n := .engine (.spillover r.path r.count)) rfl ?_ (fun c => ?_) ?_ ?_ rfl ?_ (Nat.le_refl _)
    · ext <;> simp [balance, balanceOf, withStore, hspill, Notice.isError, Notice.isProcessed, Notice.isFiltered,
        Notice.isSpillover, Notice.spilled]
      omega
    · exact Int.le_trans (counter_le_count _ _ _ _) (counter_le_count _ _ _ _)
    · simp [warned, withStore]
    · simp [withStore]
    · simp [total, withStore, returned]

/-- **A reload is counted**, with the number of values that were written, and one that failed is reported. -/
theorem calm_reload : Leads Calm (reload env) := by
  intro s
  rw [reload, perform_bind_ok (perform_attempt_onSpill _ s)]
  rcases hp : perform Spill.reload s.store with ⟨r, t⟩
  obtain ⟨hstill, hmoved⟩ := pending_reload hp
  rcases r with f | _ | r
  · have hreport := Leads.bind (calm_of_inert (inert_report hq f)) fun _ => Leads.pure (R := Calm) false
    exact trans_of Calm (inert_withStore (hstill (by simp))).toCalm (hreport _)
  · exact (inert_withStore (hstill (by simp))).toCalm
  · have hspill : s.engine.spill.pendingEvents = r.count + t.spill.pendingEvents := hmoved r rfl
    dsimp only
    rw [perform_bind_ok (perform_count _ _ _), perform_bind_ok (perform_record_eq _ _ _ _ _)]
    refine ⟨⟨?_, fun c => counter_le_count _ _ _ _, List.prefix_refl _⟩, ?_, ?_, ?_, ?_, Nat.le_refl _⟩
    · ext <;> simp [balance, balanceOf, withStore, hspill]
      omega
    · simp [warned, withStore]
    · simp [withStore]
    · simp [timesStopped, withStore]
    · simp [total, withStore, returned]

end Engine

end EventPipeline
