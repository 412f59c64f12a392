import EventPipeline.Proofs.Engine.Life
import EventPipeline.Proofs.Engine.Stopping

/-!
# A stopped engine stays stopped

Starts and stops of an engine, cut in pieces where they wait, while the source and the consumer act in
between. As long as no stop begins before a start that is under way has come to its end, the engine goes
through its states in order, and once it has stopped it stays so: nothing changes its state any more, and
nobody is told again that it runs (`stopped_final`).

The condition cannot be left out. A start does not look at the state again after it has waited for the
source, so a stop that comes meanwhile is undone by it: the engine runs after it has stopped
(`stopped_undone`).
-/

namespace EventPipeline

open Relation (ReflTransGen)

variable {σ κ α : Type}

namespace Engine

/-! ### Pieces of calls -/

/-- What is left of a call after a piece of it; nothing is left of one that failed. -/
def pending : Except Failure (Option EngineCall) → Option EngineCall
  | .ok next => next
  | .error _ => none

/-- A call to start the engine stands there. -/
def isStarting : EngineCall → Bool
  | .startingSource | .leavingConsumer _ | .abandoningSink _ => true
  | _ => false

/-- A call to stop the engine stands there. -/
def isStopping : EngineCall → Bool
  | .stoppingSource _ | .emptyingQueue | .closingSink => true
  | _ => false

/-- A piece of a call either is still, and what is left is of the same kind, or is the last one and enters a
state that may follow. -/
def Piece (kind : EngineCall → Bool) (s t : Session σ κ) (next : Option EngineCall) : Prop :=
  (Still s t ∧ ∀ call, next = some call → kind call = true) ∨
    (next = none ∧ ∃ b, s.engine.state.leadsTo b = true ∧ Enters b s t)

/-- All that an action is from a state on is a piece of a call. -/
def IsPiece (kind : EngineCall → Bool) (a : EngineState) (action : EngineAction σ κ (Option EngineCall)) : Prop :=
  ∀ s, s.engine.state = a → Piece kind s (perform action s).2 (pending (perform action s).1)

section

variable {kind : EngineCall → Bool} {a b : EngineState}

theorem IsPiece.done : IsPiece kind a (pure none : EngineAction σ κ (Option EngineCall)) :=
  fun s _ => .inl ⟨refl_of Still s, fun _ h => by cases h⟩

theorem IsPiece.goOn {call : EngineCall} (h : kind call = true) :
    IsPiece kind a (pure (some call) : EngineAction σ κ (Option EngineCall)) := by
  refine fun s _ => .inl ⟨refl_of Still s, ?_⟩
  rintro _ ⟨⟩
  exact h

theorem IsPiece.fail (f : Failure) : IsPiece kind a (throw f : EngineAction σ κ (Option EngineCall)) :=
  fun s _ => .inl ⟨refl_of Still s, fun _ h => by cases h⟩

/-- Something still may come first. -/
theorem IsPiece.after {first : EngineAction σ κ α} {rest : α → EngineAction σ κ (Option EngineCall)}
    (hf : Leads Still first) (hr : ∀ x, IsPiece kind a (rest x)) : IsPiece kind a (first >>= rest) := by
  intro s hs
  have h := hf s
  rw [perform_bind]
  rcases hp : perform first s with ⟨f | x, t⟩
  · rw [hp] at h
    exact .inl ⟨h, fun _ hnext => by cases hnext⟩
  · rw [hp] at h
    rcases hr x t (h.state.trans hs) with ⟨hstill, hnext⟩ | ⟨hnone, b, hb, henters⟩
    · exact .inl ⟨trans_of Still h hstill, hnext⟩
    · rw [h.state] at hb
      exact .inr ⟨hnone, b, hb, henters.of_still h⟩

/-- A state is entered last, and told perhaps. -/
theorem IsPiece.enter {rest : EngineAction σ κ (Option EngineCall)} (hab : a.leadsTo b = true)
    (hr : Leads Kept rest) (hn : ∀ s, pending (perform rest s).1 = none) :
    IsPiece kind a (do Engine.enter b; rest) := by
  intro s hs
  rw [perform_bind_ok (perform_enter b s)]
  exact .inr ⟨hn _, b, by rw [hs]; exact hab, (enters_enter b s).kept (hr _)⟩

/-- Telling the subscribers is the end of a call, also when one of them fails. -/
theorem pending_signal (env : Environment σ κ) (sig : EngineSignal) (s : Session σ κ) :
    pending (perform (do signal env sig; return none : EngineAction σ κ (Option EngineCall)) s).1 = none := by
  rw [perform_bind]
  rcases perform (signal env sig) s with ⟨_ | _, t⟩ <;> rfl

theorem kept_signal (env : Environment σ κ) (sig : EngineSignal) :
    Leads Kept (do signal env sig; return none : EngineAction σ κ (Option EngineCall)) :=
  Leads.bind (kept_tell env _) fun _ => Leads.pure _

end

/-! ### Pieces of a start -/

section

variable (env : Environment σ κ)

theorem piece_giveUp (f : Failure) : IsPiece isStarting .initializing (giveUp env f) := by
  refine IsPiece.after (still_change fun _ => ⟨rfl, rfl⟩) fun _ => IsPiece.after (still_report env f) fun _ => ?_
  exact IsPiece.enter rfl (Leads.throw _) fun _ => rfl

theorem piece_abandon (f : Failure) : IsPiece isStarting .initializing (abandon env f) := by
  refine IsPiece.after Leads.get fun s => ?_
  split
  · exact IsPiece.goOn rfl
  · exact piece_giveUp env f

theorem piece_startSource [Feed σ] : IsPiece isStarting .initializing (startSource env) := by
  refine IsPiece.after (still_attempt (still_onSource _ _)) fun r => ?_
  cases r with
  | ok _ => exact IsPiece.enter rfl (kept_signal env _) (pending_signal env _)
  | error f =>
    refine IsPiece.after Leads.get fun s => ?_
    cases s.engine.consumer with
    | absent => exact piece_abandon env _
    | waiting | writing => exact IsPiece.after (still_change fun _ => ⟨rfl, rfl⟩) fun _ => IsPiece.goOn rfl
    | _ => exact IsPiece.goOn rfl

theorem piece_leaveConsumer (f : Failure) : IsPiece isStarting .initializing (leaveConsumer env f) := by
  refine IsPiece.after Leads.get fun s => ?_
  cases s.engine.consumer with
  | broken g => exact IsPiece.fail g
  | _ => exact piece_abandon env f

/-- **A start goes on in pieces** from the state it has entered first. -/
theorem piece_starting [Feed σ] [Drain κ] {call : EngineCall} (h : isStarting call = true) :
    IsPiece isStarting .initializing (proceed env call) := by
  cases call with
  | startingSource => exact piece_startSource env
  | leavingConsumer f => exact piece_leaveConsumer env f
  | abandoningSink f => exact IsPiece.after (still_closeSink env) fun _ => piece_giveUp env f
  | _ => cases h

/-! ### Pieces of a stop -/

theorem piece_finishStop : IsPiece isStopping .stopping (finishStop env) :=
  IsPiece.after (still_discardSpill env) fun _ => IsPiece.enter rfl (kept_signal env _) (pending_signal env _)

theorem piece_afterConsumer : IsPiece isStopping .stopping (Engine.afterConsumer env) := by
  refine IsPiece.after Leads.get fun s => ?_
  split
  · exact IsPiece.goOn rfl
  · exact piece_finishStop env

theorem piece_afterSource : IsPiece isStopping .stopping (afterSource env) := by
  have htold : IsPiece isStopping .stopping (do put .stop; return some .emptyingQueue : EngineAction σ κ _) :=
    IsPiece.after (still_change fun _ => ⟨rfl, rfl⟩) fun _ => IsPiece.goOn rfl
  refine IsPiece.after Leads.get fun s => ?_
  dsimp only
  split
  · exact piece_afterConsumer env
  · split
    · exact htold
    · exact piece_afterConsumer env

theorem piece_stopSource [Feed σ] (announces : Bool) : IsPiece isStopping .stopping (stopSource env announces) := by
  refine IsPiece.after (still_attempt (still_onSource _ _)) fun r => ?_
  rcases r with f | _ | sent
  · exact IsPiece.after (still_report env f) fun _ => piece_afterSource env
  · exact piece_afterSource env
  · exact IsPiece.after (still_hear env sent) fun _ => piece_afterSource env

theorem piece_awaitConsumer : IsPiece isStopping .stopping (awaitConsumer env) := by
  refine IsPiece.after Leads.get fun s => ?_
  cases s.engine.consumer with
  | broken g => exact IsPiece.fail g
  | cancelled => exact IsPiece.fail _
  | waiting | writing => exact IsPiece.goOn rfl
  | absent => exact piece_afterConsumer env
  | _ =>
    -- the consumer has left
    exact IsPiece.after (still_change fun _ => ⟨rfl, rfl⟩) fun _ => piece_afterConsumer env

/-- **A stop goes on in pieces** from the state it has entered first. -/
theorem piece_stopping [Feed σ] [Drain κ] {call : EngineCall} (h : isStopping call = true) :
    IsPiece isStopping .stopping (proceed env call) := by
  cases call with
  | stoppingSource announces => exact piece_stopSource env announces
  | emptyingQueue => exact piece_awaitConsumer env
  | closingSink => exact IsPiece.after (still_closeSink env) fun _ => piece_finishStop env
  | _ => cases h

/-! ### The first pieces -/

/-- A start does nothing unless the engine is idle. -/
theorem perform_start_of_ne {s : Session σ κ} (h : s.engine.state ≠ .idle) :
    perform (Engine.start env) s = (.ok none, s) := by
  rw [Engine.start, perform_bind_ok (perform_get s), if_pos h]
  rfl

/-- A start of an idle engine enters the first state, and the rest is a piece. -/
theorem piece_start {s : Session σ κ} (h : s.engine.state = .idle) :
    ∃ t, Enters .initializing s t ∧
      Piece isStarting t (perform (Engine.start env) s).2 (pending (perform (Engine.start env) s).1) := by
  refine ⟨entered .initializing s, enters_enter _ s, ?_⟩
  rw [Engine.start, perform_bind_ok (perform_get s), if_neg (fun hne => hne h), perform_bind_ok (perform_enter _ s)]
  refine IsPiece.after (a := .initializing) (still_attempt (still_makeConnectors env)) (fun r => ?_) _ rfl
  cases r with
  | error f => exact piece_abandon env f
  | ok _ => exact IsPiece.after (still_change fun _ => ⟨rfl, rfl⟩) fun _ => IsPiece.goOn rfl

/-- A stop does nothing unless the engine runs or is about to. -/
theorem perform_stop_of_ne [Feed σ] {s : Session σ κ} (h : s.engine.state.leadsTo .stopping = false) :
    perform (Engine.stop env) s = (.ok none, s) := by
  rw [Engine.stop, perform_bind_ok (perform_get s)]
  cases hs : s.engine.state <;> rw [hs] at h <;> first | rfl | cases h

/-- A stop of an engine that runs or is about to enters a state, and the rest is a piece. -/
theorem piece_stop [Feed σ] {s : Session σ κ} (h : s.engine.state.leadsTo .stopping = true) :
    ∃ t, Enters .stopping s t ∧
      Piece isStopping t (perform (Engine.stop env) s).2 (pending (perform (Engine.stop env) s).1) := by
  refine ⟨entered .stopping s, enters_enter _ s, ?_⟩
  rw [Engine.stop, perform_bind_ok (perform_get s)]
  cases hs : s.engine.state <;> rw [hs] at h
  case running | initializing =>
    dsimp only
    rw [perform_bind_ok (perform_enter _ s)]
    refine IsPiece.after (a := .stopping) Leads.get (fun t => ?_) _ rfl
    cases t.engine.source with
    | none => exact piece_afterSource env
    | some source => exact IsPiece.after (still_change fun _ => ⟨rfl, rfl⟩) fun _ => IsPiece.goOn rfl
  all_goals cases h

end

/-! ### Calls side by side -/

/-- An engine with the calls to it that are under way. -/
structure Calls (σ κ : Type) where
  /-- The engine and what it acts on. -/
  session : Session σ κ
  /-- Where the start stands, if one is under way. -/
  start : Option EngineCall
  /-- Where the stops stand that are under way. -/
  stops : List EngineCall

namespace Calls

/-- No call is under way. -/
def none (s : Session σ κ) : Calls σ κ := ⟨s, .none, []⟩

variable [Feed σ] [Drain κ] (env : Environment σ κ)

/-- A start begins. -/
def beginStart (c : Calls σ κ) : Calls σ κ :=
  { c with
    session := (perform (Engine.start env) c.session).2
    start := pending (perform (Engine.start env) c.session).1 }

/-- A start goes on from where it stood. -/
def goOnStart (call : EngineCall) (c : Calls σ κ) : Calls σ κ :=
  { c with
    session := (perform (proceed env call) c.session).2
    start := pending (perform (proceed env call) c.session).1 }

/-- A stop begins. -/
def beginStop (c : Calls σ κ) : Calls σ κ :=
  { c with
    session := (perform (Engine.stop env) c.session).2
    stops := c.stops ++ (pending (perform (Engine.stop env) c.session).1).toList }

/-- One of the stops goes on from where it stood. -/
def goOnStop (before : List EngineCall) (call : EngineCall) (after : List EngineCall) (c : Calls σ κ) : Calls σ κ :=
  { c with
    session := (perform (proceed env call) c.session).2
    stops := before ++ (pending (perform (proceed env call) c.session).1).toList ++ after }

/-- The source acts. -/
def source (f : Source σ → Source σ) (sent : Option SourceSignal) (c : Calls σ κ) : Calls σ κ :=
  { c with session := (perform (sourceStep env f sent) c.session).2 }

/-- The consumer acts. -/
def consume (c : Calls σ κ) : Calls σ κ := { c with session := (perform (Engine.consume env) c.session).2 }

/-- A step of a call, of the source or of the consumer. Any number of stops may be under way beside one start;
whether a stop may also begin while a start is under way is left open. -/
inductive Step (overlapping : Bool) : Calls σ κ → Calls σ κ → Prop where
  /-- A start begins. -/
  | beginStart (c : Calls σ κ) (h : c.start = .none) : Step overlapping c (c.beginStart env)
  /-- The start goes on. -/
  | goOnStart (c : Calls σ κ) (call : EngineCall) (h : c.start = some call) :
      Step overlapping c (c.goOnStart env call)
  /-- A stop begins. -/
  | beginStop (c : Calls σ κ) (h : c.start = .none ∨ overlapping = true) : Step overlapping c (c.beginStop env)
  /-- A stop goes on. -/
  | goOnStop (c : Calls σ κ) (before : List EngineCall) (call : EngineCall) (after : List EngineCall)
      (h : c.stops = before ++ call :: after) : Step overlapping c (c.goOnStop env before call after)
  /-- The source acts. -/
  | source (c : Calls σ κ) (f : Source σ → Source σ) (sent : Option SourceSignal) :
      Step overlapping c (c.source env f sent)
  /-- The consumer acts. -/
  | consume (c : Calls σ κ) : Step overlapping c (c.consume env)

/-- Any number of steps. -/
abbrev Reaches (overlapping : Bool) : Calls σ κ → Calls σ κ → Prop := ReflTransGen (Step env overlapping)

end Calls

/-! ### The order of states -/

/-- The changes of state of an engine that was idle first: each goes to a state that may follow. -/
inductive History : List Fields → EngineState → Prop where
  /-- Nothing has changed. -/
  | idle : History [] .idle
  /-- One more change. -/
  | change {fs : List Fields} {a b : EngineState} : History fs a → a.leadsTo b = true →
      History (fs ++ [a.change b]) b

/-- The session has the history of an engine that was idle first. -/
abbrev HasHistory (s : Session σ κ) : Prop := History (changes s) s.engine.state

theorem HasHistory.still {s t : Session σ κ} (h : HasHistory s) (ht : Still s t) : HasHistory t := by
  rw [HasHistory, ht.changes, ht.state]
  exact h

theorem HasHistory.enters {s t : Session σ κ} {b : EngineState} (h : HasHistory s)
    (hb : s.engine.state.leadsTo b = true) (ht : Enters b s t) : HasHistory t := by
  rw [HasHistory, ht.changes, ht.state]
  exact h.change hb

theorem HasHistory.piece {kind : EngineCall → Bool} {s t : Session σ κ} {next : Option EngineCall}
    (h : HasHistory s) (hp : Piece kind s t next) : HasHistory t := by
  rcases hp with ⟨hstill, -⟩ | ⟨-, b, hb, henters⟩
  · exact h.still hstill
  · exact h.enters hb henters

/-- What is left after a piece is of the same kind, and the state is the same as before. -/
theorem Piece.next {kind : EngineCall → Bool} {s t : Session σ κ} {next : Option EngineCall} {call : EngineCall}
    (h : Piece kind s t next) (hnext : next = some call) :
    kind call = true ∧ t.engine.state = s.engine.state := by
  rcases h with ⟨hstill, hkind⟩ | ⟨hnone, -⟩
  · exact ⟨hkind call hnext, hstill.state⟩
  · rw [hnone] at hnext
    cases hnext

/-- The states came in order, and a call that is under way has the engine in its own state. -/
structure Orderly (c : Calls σ κ) : Prop where
  /-- The states came in order. -/
  history : HasHistory c.session
  /-- A start is under way while the engine is about to run. -/
  start : ∀ call, c.start = some call → isStarting call = true ∧ c.session.engine.state = .initializing
  /-- A stop is under way while the engine is being stopped. -/
  stops : ∀ call, call ∈ c.stops → isStopping call = true ∧ c.session.engine.state = .stopping
  /-- One stop at most is under way. -/
  alone : c.stops.length ≤ 1

theorem Orderly.none {s : Session σ κ} (hidle : s.engine.state = .idle) (hs : changes s = []) :
    Orderly (Calls.none s) := by
  refine ⟨?_, ?_, ?_, Nat.zero_le _⟩
  · show History (changes s) s.engine.state
    rw [hidle, hs]
    exact .idle
  · intro call hcall
    cases hcall
  · intro call hcall
    cases hcall

/-- Unless the engine is being stopped, no stop is under way. -/
theorem Orderly.stops_eq_nil {c : Calls σ κ} (h : Orderly c) (hs : c.session.engine.state ≠ .stopping) :
    c.stops = [] := by
  cases hc : c.stops with
  | nil => rfl
  | cons call rest => exact absurd (h.stops call (by rw [hc]; exact List.mem_cons_self)).2 hs

/-- Something still keeps the order. -/
theorem Orderly.still {c : Calls σ κ} (h : Orderly c) {t : Session σ κ} (ht : Still c.session t) :
    Orderly { c with session := t } := by
  refine ⟨h.history.still ht, fun call hcall => ?_, fun call hcall => ?_, h.alone⟩
  · obtain ⟨hkind, hstate⟩ := h.start call hcall
    exact ⟨hkind, ht.state.trans hstate⟩
  · obtain ⟨hkind, hstate⟩ := h.stops call hcall
    exact ⟨hkind, ht.state.trans hstate⟩

/-- A piece of a start keeps the order. -/
theorem Orderly.afterStart {c : Calls σ κ} (h : Orderly c) {s t : Session σ κ} {next : Option EngineCall} (hs : HasHistory s)
    (hstate : s.engine.state = .initializing) (hstops : c.stops = []) (hp : Piece isStarting s t next) :
    Orderly { c with session := t, start := next } := by
  refine ⟨hs.piece hp, fun call hnext => ?_, fun call hcall => ?_, h.alone⟩
  · obtain ⟨hkind, ht⟩ := hp.next hnext
    exact ⟨hkind, ht.trans hstate⟩
  · rw [hstops] at hcall
    cases hcall

/-- A piece of a stop keeps the order. -/
theorem Orderly.afterStop {c : Calls σ κ} {s t : Session σ κ} {next : Option EngineCall} (hs : HasHistory s)
    (hstate : s.engine.state = .stopping) (hstart : c.start = .none) (hp : Piece isStopping s t next) :
    Orderly { c with session := t, stops := next.toList } := by
  refine ⟨hs.piece hp, fun call hcall => ?_, fun call hcall => ?_, ?_⟩
  · rw [hstart] at hcall
    cases hcall
  · obtain ⟨hkind, ht⟩ := hp.next (Option.mem_toList.1 hcall)
    exact ⟨hkind, ht.trans hstate⟩
  · cases next with
    | none => exact Nat.zero_le _
    | some call => exact Nat.le_refl _

theorem still_sourceStep (env : Environment σ κ) (f : Source σ → Source σ) (sent : Option SourceSignal) :
    Leads Still (sourceStep env f sent) := by
  refine Leads.bind (still_change fun _ => ⟨rfl, rfl⟩) fun _ => ?_
  cases sent with
  | none => exact Leads.pure _
  | some sent => exact still_hear env sent

section

variable [Feed σ] [Drain κ] {env : Environment σ κ} {c c' : Calls σ κ}

/-- **Every step keeps the order**, if no stop begins while a start is under way. -/
theorem Orderly.step (h : Orderly c) (hstep : Calls.Step env false c c') : Orderly c' := by
  cases hstep with
  | beginStart hnone =>
    by_cases hidle : c.session.engine.state = .idle
    · obtain ⟨t, henters, hpiece⟩ := piece_start env hidle
      have hstops := h.stops_eq_nil (by rw [hidle]; decide)
      exact h.afterStart (h.history.enters (by rw [hidle]; rfl) henters) henters.state hstops hpiece
    · rw [Calls.beginStart, perform_start_of_ne env hidle]
      refine ⟨h.history, ?_, h.stops, h.alone⟩
      intro call hcall
      cases hcall
  | goOnStart call hcall =>
    obtain ⟨hkind, hstate⟩ := h.start call hcall
    have hstops := h.stops_eq_nil (by rw [hstate]; decide)
    exact h.afterStart h.history hstate hstops (piece_starting env hkind _ hstate)
  | beginStop hnone =>
    have hstart : c.start = .none := hnone.resolve_right Bool.false_ne_true
    cases hleads : c.session.engine.state.leadsTo .stopping with
    | true =>
      obtain ⟨t, henters, hpiece⟩ := piece_stop env hleads
      have hstops := h.stops_eq_nil fun hstate => by rw [hstate] at hleads; cases hleads
      rw [Calls.beginStop, hstops]
      exact Orderly.afterStop (h.history.enters hleads henters) henters.state hstart hpiece
    | false =>
      rw [Calls.beginStop, perform_stop_of_ne env hleads]
      exact ⟨h.history, h.start, by rw [pending, Option.toList, List.append_nil]; exact h.stops,
        by rw [pending, Option.toList, List.append_nil]; exact h.alone⟩
  | goOnStop before call after hcall =>
    obtain ⟨hkind, hstate⟩ := h.stops call (by rw [hcall]; exact List.mem_append_right _ List.mem_cons_self)
    have hstart : c.start = .none := by
      cases hs : c.start with
      | none => rfl
      | some call' => cases hstate.symm.trans (h.start call' hs).2
    have halone := h.alone
    rw [hcall, List.length_append, List.length_cons] at halone
    obtain rfl : before = [] := List.length_eq_zero_iff.1 (by omega)
    obtain rfl : after = [] := List.length_eq_zero_iff.1 (by omega)
    rw [Calls.goOnStop, List.nil_append, List.append_nil]
    exact Orderly.afterStop h.history hstate hstart (piece_stopping env hkind _ hstate)
  | source f sent => exact h.still (still_sourceStep env f sent _)
  | consume => exact h.still (still_consume env _)

theorem Orderly.reaches (h : Orderly c) (hc : Calls.Reaches env false c c') : Orderly c' := by
  induction hc with
  | refl => exact h
  | tail _ hstep ih => exact ih.step hstep

/-- Once the engine has stopped, every step is still. -/
theorem Orderly.still_of_stopped (h : Orderly c) (hs : c.session.engine.state = .stopped)
    (hstep : Calls.Step env false c c') : Still c.session c'.session := by
  cases hstep with
  | beginStart hnone =>
    rw [Calls.beginStart, perform_start_of_ne env (by rw [hs]; decide)]
    exact refl_of Still _
  | goOnStart call hcall => cases hs.symm.trans (h.start call hcall).2
  | beginStop hnone =>
    rw [Calls.beginStop, perform_stop_of_ne env (by rw [hs]; rfl)]
    exact refl_of Still _
  | goOnStop before call after hcall =>
    have hmem : call ∈ c.stops := by
      rw [hcall]
      exact List.mem_append_right _ List.mem_cons_self
    cases hs.symm.trans (h.stops call hmem).2
  | source f sent => exact still_sourceStep env f sent _
  | consume => exact still_consume env _

theorem Orderly.still_reaches (h : Orderly c) (hs : c.session.engine.state = .stopped)
    (hc : Calls.Reaches env false c c') : Still c.session c'.session := by
  induction hc with
  | refl => exact refl_of Still _
  | tail hreach hstep ih => exact trans_of Still ih ((h.reaches hreach).still_of_stopped (ih.state.trans hs) hstep)

/-- **A stopped engine stays stopped.** If no stop begins while a start is under way, an engine that was idle
goes through its states in order, and once it has stopped nothing changes its state and nobody is told that it
runs. -/
theorem stopped_final {s : Session σ κ} (hidle : s.engine.state = .idle) (hs : changes s = [])
    (hc : Calls.Reaches env false (Calls.none s) c) :
    History (changes c.session) c.session.engine.state ∧
      (c.session.engine.state = .stopped → Calls.Reaches env false c c' →
        c'.session.engine.state = .stopped ∧ changes c'.session = changes c.session ∧
          timesStarted c'.session = timesStarted c.session) := by
  have horderly := (Orderly.none hidle hs).reaches hc
  refine ⟨horderly.history, fun hstopped hc' => ?_⟩
  have hstill := horderly.still_reaches hstopped hc'
  exact ⟨hstill.state.trans hstopped, hstill.changes, hstill.started⟩

end

/-! ### Runs in memory -/

/-- An engine in memory has been started and stopped. -/
def startedAndStopped : Calls MemorySource (Recorded MemorySink) :=
  ((((((Calls.none aboutToStart).beginStart inMemory).goOnStart inMemory .startingSource).beginStop inMemory).goOnStop
    inMemory [] (.stoppingSource false) []).consume inMemory).goOnStop inMemory [] .emptyingQueue []
    |>.goOnStop inMemory [] .closingSink []

/-- After a start and a stop in a row another start does nothing. -/
theorem stopped_final_in_memory :
    startedAndStopped.session.engine.state = .stopped ∧
      (startedAndStopped.beginStart inMemory).session.engine.state = .stopped ∧
      timesStarted (startedAndStopped.beginStart inMemory).session = 1 := by
  have hrun : Calls.Reaches inMemory false (Calls.none aboutToStart) startedAndStopped := by
    refine .tail (.tail (.tail (.tail (.tail (.tail (.single (.beginStart _ rfl)) (.goOnStart _ _ rfl))
      (.beginStop _ (.inl rfl))) (.goOnStop _ [] _ [] rfl)) (.consume _)) (.goOnStop _ [] _ [] ?_)) (.goOnStop _ [] _ [] ?_)
    · decide +kernel
    · decide +kernel
  have hstopped : startedAndStopped.session.engine.state = .stopped := by decide +kernel
  obtain ⟨-, hfinal⟩ := stopped_final rfl rfl hrun
  obtain ⟨hstate, -, htimes⟩ := hfinal hstopped (.single (.beginStart _ (by decide +kernel)))
  exact ⟨hstopped, hstate, htimes.trans (by decide +kernel)⟩

/-- An engine in memory is stopped while its start waits for the source. -/
def stoppedEarly : Calls MemorySource (Recorded MemorySink) :=
  (((((Calls.none aboutToStart).beginStart inMemory).beginStop inMemory).goOnStop inMemory [] (.stoppingSource false)
    []).consume inMemory).goOnStop inMemory [] .emptyingQueue [] |>.goOnStop inMemory [] .closingSink []

/-- **A start undoes a stop** that comes while it waits for the source: the engine has stopped, and then it runs
and says so. -/
theorem stopped_undone :
    Calls.Reaches inMemory true (Calls.none aboutToStart) stoppedEarly ∧
      stoppedEarly.session.engine.state = .stopped ∧ timesStarted stoppedEarly.session = 0 ∧
      Calls.Reaches inMemory true stoppedEarly (stoppedEarly.goOnStart inMemory .startingSource) ∧
      (stoppedEarly.goOnStart inMemory .startingSource).session.engine.state = .running ∧
      timesStarted (stoppedEarly.goOnStart inMemory .startingSource).session = 1 := by
  have hrun : Calls.Reaches inMemory true (Calls.none aboutToStart) stoppedEarly := by
    refine .tail (.tail (.tail (.tail (.tail (.single (.beginStart _ rfl)) (.beginStop _ (.inr rfl)))
      (.goOnStop _ [] _ [] rfl)) (.consume _)) (.goOnStop _ [] _ [] ?_)) (.goOnStop _ [] _ [] ?_)
    · decide +kernel
    · decide +kernel
  refine ⟨hrun, ?_, ?_, .single (.goOnStart _ _ ?_), ?_, ?_⟩
  all_goals decide +kernel

end Engine

end EventPipeline
