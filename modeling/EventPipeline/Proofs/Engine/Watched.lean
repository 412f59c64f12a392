import EventPipeline.Proofs.Engine.Subscribers

/-!
# An engine whose subscribers fail

An engine from its start to the end of its stop, while the source, the consumer and the caller act in any order
(`Deed`) and subscribers fail as they like, though not on errors. `Sound` is what holds at any time: every item that
comes is taken in the order of its coming and handled to the end, up to the one that tells the consumer to leave, and
the engine goes from one phase to the next (`Phase`). Every turn keeps that (`Sound.turn`).
-/

namespace EventPipeline

open Relation (ReflTransGen)

variable {σ κ : Type}

namespace Engine

/-! ### Parties and their turns -/

/-- An engine between its start and the end of its stop. -/
structure Watched (σ κ : Type) where
  /-- The engine and what it acts on. -/
  session : Session σ κ
  /-- Where the call to start or to stop the engine stands, if there is one. -/
  call : Option EngineCall
  /-- The items that have come to the queue, oldest first. -/
  put : List QueueItem
  /-- The items that the consumer has taken. -/
  taken : List QueueItem

namespace Watched

/-- The caller waits for the source to start. -/
def begun (s : Session σ κ) : Watched σ κ := ⟨s, some .startingSource, [], []⟩

/-- After a turn of the source or the caller. -/
def others (w : Watched σ κ) (s : Session σ κ) (call : Option EngineCall) : Watched σ κ :=
  { w with
    session := s
    call := call
    put := w.put ++ (waiting s).drop (waiting w.session).length }

variable [Feed σ] [Drain κ] (env : Environment σ κ)

/-- The source changes in any way, and sends a signal or none. -/
def source (f : Source σ → Source σ) (sent : Option SourceSignal) (w : Watched σ κ) : Watched σ κ :=
  w.others (perform (sourceStep env f sent) w.session).2 w.call

/-- The consumer makes a step. -/
def consume (w : Watched σ κ) : Watched σ κ :=
  let s := (perform (Engine.consume env) w.session).2
  { w with
    session := s
    taken := w.taken ++ (waiting w.session).take ((waiting w.session).length - (waiting s).length) }

/-- The caller goes on with its call, if there is one; nothing is left of a call that failed. -/
def goOn (w : Watched σ κ) : Watched σ κ :=
  match w.call with
  | none => w
  | some call => w.others (perform (proceed env call) w.session).2 (pending (perform (proceed env call) w.session).1)

/-- The caller stops the engine. -/
def stop (w : Watched σ κ) : Watched σ κ :=
  w.others (perform (Engine.stop env) w.session).2 (pending (perform (Engine.stop env) w.session).1)

/-- A turn of one of the three parties. -/
inductive Deed : Watched σ κ → Watched σ κ → Prop where
  /-- The source acts. -/
  | source (w : Watched σ κ) (f : Source σ → Source σ) (sent : Option SourceSignal) : Deed w (w.source env f sent)
  /-- The consumer acts. -/
  | consume (w : Watched σ κ) : Deed w (w.consume env)
  /-- The caller goes on, and a start comes to its end. -/
  | goOn (w : Watched σ κ) (h : w.call = some .startingSource → (w.goOn env).session.engine.state = .running) :
      Deed w (w.goOn env)
  /-- The caller, whose start has come to its end, stops the engine. -/
  | stop (w : Watched σ κ) (h : w.call = none) : Deed w (w.stop env)

/-- Any number of turns. -/
abbrev Reaches : Watched σ κ → Watched σ κ → Prop := ReflTransGen (Deed env)

/-- A round: turns, among them one of the consumer and then one of the caller. -/
def Round (w w' : Watched σ κ) : Prop :=
  ∃ u v, Reaches env w u ∧ Reaches env (u.consume env) v ∧ Reaches env (v.goOn env) w'

end Watched

open Watched (Deed Round)

/-! ### What holds at any time -/

/-- How many items the consumer is handling. -/
def busy : Consumer → Nat
  | .writing .. => 1
  | _ => 0

/-- Where the consumer stands after it has taken items. -/
inductive Stands : List QueueItem → Consumer → Prop where
  /-- It waits for the next item. -/
  | waiting {taken : List QueueItem} (h : .stop ∉ taken) : Stands taken .waiting
  /-- It is at a write for the last item. -/
  | writing {taken : List QueueItem} {item : QueueItem} {v : Value} {next : Handling} (h : .stop ∉ taken)
      (hn : Follows item next) : Stands (taken ++ [item]) (.writing v next)
  /-- It has left. -/
  | over {taken : List QueueItem} (h : .stop ∉ taken) : Stands (taken ++ [.stop]) .over
  /-- It has left, and the caller knows. -/
  | absent {taken : List QueueItem} (h : .stop ∉ taken) : Stands (taken ++ [.stop]) .absent

theorem ne_stop_of_follows {item : QueueItem} {next : Handling} (h : Follows item next) : item ≠ .stop := by
  rintro rfl
  cases next <;> cases h

/-- While the consumer is there, it has not been told to leave. -/
theorem Stands.stop_notMem {taken : List QueueItem} {consumer : Consumer} (h : Stands taken consumer)
    (hact : isActive consumer) : .stop ∉ taken := by
  cases h with
  | waiting h => exact h
  | @writing taken item v next h hn =>
    rw [List.mem_append, List.mem_singleton, not_or]
    exact ⟨h, (ne_stop_of_follows hn).symm⟩
  | «over» => cases hact
  | absent => cases hact

theorem Stands.over_or_absent {taken : List QueueItem} {consumer : Consumer} (h : Stands taken consumer)
    (hact : isActive consumer = false) : consumer = .over ∨ consumer = .absent := by
  cases h with
  | waiting => cases hact
  | writing => cases hact
  | «over» => exact .inl rfl
  | absent => exact .inr rfl

/-- Once the consumer has left, it has been told to. -/
theorem Stands.stop_mem {taken : List QueueItem} {consumer : Consumer} (h : Stands taken consumer)
    (hact : isActive consumer = false) : .stop ∈ taken := by
  cases h with
  | waiting => cases hact
  | writing => cases hact
  | «over» => exact List.mem_append_right _ List.mem_cons_self
  | absent => exact List.mem_append_right _ List.mem_cons_self

/-- The engine has stopped: the sink was closed last, and the spilled values have been removed. -/
structure AtRest (w : Watched σ (Recorded κ)) : Prop where
  /-- The call has come to its end. -/
  call : w.call = none
  /-- The engine has stopped. -/
  state : w.session.engine.state = .stopped
  /-- The consumer has left. -/
  consumer : w.session.engine.consumer = .absent
  /-- The last call of the sink closed it. -/
  closed : (sinkCalls w.session).getLast? = some .close
  /-- The spilled values have been removed. -/
  discarded : ∃ before, w.session.store = (Spill.discardAll.run before).2

/-- The phases of an engine: items may come; the consumer has been told to leave; the sink is to be closed; the engine
has stopped. -/
inductive Phase (w : Watched σ (Recorded κ)) : Prop where
  /-- The consumer has not been told to leave. -/
  | attended (hcall : Attended w.call w.session.engine.state) (hput : .stop ∉ w.put)
  /-- The caller waits for the consumer to leave. -/
  | emptying (hcall : w.call = some .emptyingQueue) (hstate : w.session.engine.state = .stopping) (hput : .stop ∈ w.put)
      (hconsumer : w.session.engine.consumer ≠ .absent)
  /-- The caller waits for the sink. -/
  | closing (hcall : w.call = some .closingSink) (hstate : w.session.engine.state = .stopping)
      (hconsumer : w.session.engine.consumer = .absent)
  /-- The engine has stopped. -/
  | atRest (h : AtRest w)

/-- What holds at any time of an engine whose subscribers do not fail on errors. -/
structure Sound (env : Environment σ (Recorded κ)) (w : Watched σ (Recorded κ)) : Prop where
  /-- The items are taken in the order of their coming. -/
  order : w.put = w.taken ++ waiting w.session
  /-- The consumer is there until it is told to leave. -/
  stands : Stands w.taken w.session.engine.consumer
  /-- Every item that was taken has been handled to the end, except for the one of a write that is due. -/
  queue : w.session.engine.queue =
    some ⟨waiting w.session, (waiting w.session).length + busy w.session.engine.consumer⟩
  /-- There is a sink. -/
  sink : w.session.engine.sink.isSome
  /-- The engine is in one of its phases. -/
  phase : Phase w
  /-- What has to be done for the last item has been done when the consumer is back at the queue. -/
  done : w.session.engine.consumer = .waiting → ∀ item ∈ w.taken.getLast?, Done env item w.session
  /-- Once the end of the stream has been taken, it is announced, or stages are being flushed. -/
  ended : env.QuietOn Notice.isProcessed → .finished ∈ w.taken →
    w.session.engine.ended = some true ∨ ∃ v rest, w.session.engine.consumer = .writing v (.flush rest)

theorem Sound.queue_isSome {env : Environment σ (Recorded κ)} {w : Watched σ (Recorded κ)} (h : Sound env w) :
    w.session.engine.queue.isSome := by
  rw [h.queue]
  rfl

/-! ### Turns of the source and the caller -/

theorem Joins.waiting {items : List QueueItem} {s t : Session σ κ} (h : Joins items s t)
    (hqueue : s.engine.queue.isSome) : Engine.waiting t = Engine.waiting s ++ items := by
  obtain ⟨q, hq⟩ := Option.isSome_iff_exists.1 hqueue
  simp [Engine.waiting, h.queue, hq, foldl_put]

section

variable {env : Environment σ (Recorded κ)} {w : Watched σ (Recorded κ)} {items : List QueueItem}
  {t : Session σ (Recorded κ)} {call : Option EngineCall}

theorem put_others (h : Sound env w) (hj : Joins items w.session t) : (w.others t call).put = w.put ++ items := by
  rw [Watched.others, hj.waiting h.queue_isSome, List.drop_left]

/-- **Others may put items into the queue**, and the engine may go to another phase meanwhile. -/
theorem Sound.others (h : Sound env w) (hj : Joins items w.session t) (hp : Phase (w.others t call)) :
    Sound env (w.others t call) := by
  have hwaiting := hj.waiting h.queue_isSome
  have hcore : t.core = w.session.core := hj.core
  refine ⟨?_, ?_, ?_, ?_, hp, fun hc item hitem => ?_, fun hprocessed hmem => ?_⟩
  · rw [put_others h hj, h.order, List.append_assoc]
    exact congrArg (w.taken ++ ·) hwaiting.symm
  · show Stands w.taken t.engine.consumer
    rw [hj.consumer]
    exact h.stands
  · show t.engine.queue = some ⟨waiting t, (waiting t).length + busy t.engine.consumer⟩
    rw [hj.queue, h.queue, Option.map_some, foldl_put, hwaiting, hj.consumer, List.length_append]
    simp only [Option.some.injEq, Queue.mk.injEq, true_and]
    omega
  · show t.engine.sink.isSome
    rw [show t.engine.sink = w.session.engine.sink from congrArg Core.sink hcore]
    exact h.sink
  · exact (h.done (hj.consumer.symm.trans hc) item hitem).of_core hcore hj.told hj.ended
  · show t.engine.ended = some true ∨ ∃ v rest, t.engine.consumer = .writing v (.flush rest)
    rw [hj.consumer]
    exact (h.ended hprocessed hmem).imp_left hj.ended

end

/-! ### Turns of the consumer -/

theorem active_placed (due : Option DueWrite) (t : Session σ κ) : isActive (placed due t).engine.consumer := by
  cases due <;> rfl

section

variable {env : Environment σ (Recorded κ)} {w : Watched σ (Recorded κ)}

theorem sink_placed (due : Option DueWrite) (t : Session σ κ) : (placed due t).engine.sink = t.engine.sink :=
  congrArg Core.sink (core_placed due t)

theorem ended_placed (due : Option DueWrite) (t : Session σ κ) : (placed due t).engine.ended = t.engine.ended := by
  cases due <;> rfl

section Handled

variable {item : QueueItem} {bound : Nat} {calls : List SinkCall} {s t : Session σ (Recorded κ)}
  {due : Option DueWrite}

theorem Handled.stands {before : List QueueItem} (hd : Handled env item bound calls s due t) (hi : item ≠ .stop)
    (hbefore : .stop ∉ before) : Stands (before ++ [item]) (placed due t).engine.consumer := by
  cases due with
  | none =>
    refine .waiting ?_
    rw [List.mem_append, List.mem_singleton, not_or]
    exact ⟨hbefore, hi.symm⟩
  | some due => exact .writing hbefore (hd.next due.1 due.2 rfl).1

theorem Handled.queue_placed {rest : List QueueItem} (hd : Handled env item bound calls s due t)
    (hqueue : s.engine.queue = some ⟨rest, rest.length + 1⟩) :
    waiting (placed due t) = rest ∧
      (placed due t).engine.queue = some ⟨rest, rest.length + busy (placed due t).engine.consumer⟩ := by
  have hqueue' : t.engine.queue = some ⟨rest, rest.length + 1⟩ := hd.keeps.queue.trans hqueue
  constructor
  · rw [waiting_placed, waiting, hqueue']
    rfl
  · cases due with
    | none =>
      show t.engine.queue.map _ = _
      rw [hqueue']
      rfl
    | some due => exact hqueue'

/-- When the consumer is back at the queue, the item is done. -/
theorem Handled.done_placed (hd : Handled env item bound calls s due t)
    (hc : (placed due t).engine.consumer = .waiting) : Done env item (placed due t) := by
  cases due with
  | some due => cases hc
  | none =>
    refine (hd.done rfl).of_core (core_placed none t) ?_ ?_
    · rw [notices_placed]
    · rw [ended_placed]
      exact id

/-- After the end of the stream, the end is announced, or stages are being flushed. -/
theorem Handled.ended_placed (hd : Handled env .finished bound calls s due t)
    (hprocessed : env.QuietOn Notice.isProcessed) : (placed due t).engine.ended = some true ∨
      ∃ v rest, (placed due t).engine.consumer = .writing v (.flush rest) := by
  cases due with
  | none => exact .inl ((Engine.ended_placed none t).trans (hd.done rfl hprocessed))
  | some due =>
    obtain ⟨v, next⟩ := due
    have hnext := (hd.next v next rfl).1
    cases next with
    | event => cases hnext
    | flush rest => exact .inr ⟨v, rest, rfl⟩

end Handled

/-- A phase with an active consumer lasts as long as the consumer is active and the engine's state is the same. -/
theorem Phase.of_active {taken : List QueueItem} {t : Session σ (Recorded κ)} (h : Phase w)
    (hact : isActive w.session.engine.consumer) (hact' : isActive t.engine.consumer)
    (hstate : t.engine.state = w.session.engine.state) : Phase { w with session := t, taken := taken } := by
  cases h with
  | attended hcall hput => exact .attended (by rw [hstate]; exact hcall) hput
  | emptying hcall hs hput _ =>
    refine .emptying hcall (hstate.trans hs) hput fun habsent => ?_
    rw [habsent] at hact'
    cases hact'
  | closing _ _ habsent =>
    rw [habsent] at hact
    cases hact
  | atRest hrest =>
    rw [hrest.consumer] at hact
    cases hact

/-- **A piece of an item has been handled.** -/
theorem Sound.piece (h : Sound env w) (hact : isActive w.session.engine.consumer) {item : QueueItem}
    {before rest : List QueueItem} {bound : Nat} {calls : List SinkCall} {s t : Session σ (Recorded κ)}
    {due : Option DueWrite} (hi : item ≠ .stop) (hbefore : .stop ∉ before) (horder : w.put = before ++ [item] ++ rest)
    (hqueue : s.engine.queue = some ⟨rest, rest.length + 1⟩) (hsink : s.engine.sink.isSome)
    (hended : env.QuietOn Notice.isProcessed → .finished ∈ before → item ≠ .finished → s.engine.ended = some true)
    (hd : Handled env item bound calls s due t) (hstate : (placed due t).engine.state = w.session.engine.state) :
    Sound env { w with session := placed due t, taken := before ++ [item] } := by
  obtain ⟨hwaiting, hqueue'⟩ := hd.queue_placed hqueue
  refine ⟨?_, hd.stands hi hbefore, ?_, ?_, h.phase.of_active hact (active_placed due t) hstate,
    fun hc last hlast => ?_, fun hprocessed hmem => ?_⟩
  · rw [hwaiting]
    exact horder
  · rw [hwaiting]
    exact hqueue'
  · rw [sink_placed, hd.keeps.sink]
    exact hsink
  · rw [List.getLast?_append, List.getLast?_singleton, Option.some_or, Option.mem_some] at hlast
    exact hlast ▸ hd.done_placed hc
  · by_cases hfinished : item = .finished
    · subst hfinished
      exact hd.ended_placed hprocessed
    · rw [List.mem_append, List.mem_singleton] at hmem
      have hmem' : .finished ∈ before := hmem.resolve_right fun he => hfinished he.symm
      exact .inl ((ended_placed due t).trans (hd.keeps.ended (hended hprocessed hmem' hfinished)))

/-- The session after the consumer has taken the order to leave. -/
theorem perform_consume_stop {s : Session σ (Recorded κ)} [Drain κ] {rest : List QueueItem} {n : Nat}
    (hc : s.engine.consumer = .waiting) (hqueue : s.engine.queue = some ⟨.stop :: rest, n⟩) :
    perform (Engine.consume env) s =
      (.ok (), { s with engine.consumer := .over, engine.queue := some ⟨rest, n - 1⟩ }) := by
  rw [Engine.consume, perform_bind_ok (perform_get s), hc]
  dsimp only
  rw [take, perform_bind_ok (perform_get s), hqueue]
  rfl

/-- At an empty queue there is nothing to do. -/
theorem perform_consume_nil {s : Session σ (Recorded κ)} [Drain κ] {n : Nat} (hc : s.engine.consumer = .waiting)
    (hqueue : s.engine.queue = some ⟨[], n⟩) : perform (Engine.consume env) s = (.ok (), s) := by
  rw [Engine.consume, perform_bind_ok (perform_get s), hc]
  dsimp only
  rw [take, perform_bind_ok (perform_get s), hqueue]
  rfl

theorem state_of_consume [Drain κ] {s t : Session σ (Recorded κ)} {r : Except Failure Unit}
    (hp : perform (Engine.consume env) s = (r, t)) : t.engine.state = s.engine.state := by
  have hstill := still_consume env s
  rw [hp] at hstill
  exact hstill.state

/-! ### Steps until the consumer leaves -/

/-- How many steps the consumer makes at most for the items up to the one that tells it to leave. -/
def stepsToStop (stages : List Stage) : List QueueItem → Nat
  | [] => 1
  | .stop :: _ => 1
  | item :: rest => itemSteps stages item + stepsToStop stages rest

/-- How many steps the consumer makes at most until it leaves. -/
def stepsToLeave (s : Session σ κ) : Nat :=
  match s.engine.consumer with
  | .waiting => stepsToStop s.engine.stages (waiting s)
  | .writing _ next => stepsLeft next + stepsToStop s.engine.stages (waiting s)
  | _ => 0

theorem itemSteps_pos (stages : List Stage) (item : QueueItem) : 0 < itemSteps stages item := by
  cases item <;> exact Nat.succ_pos _

theorem stepsToStop_cons (stages : List Stage) {item : QueueItem} (hi : item ≠ .stop) (rest : List QueueItem) :
    stepsToStop stages (item :: rest) = itemSteps stages item + stepsToStop stages rest := by
  cases item with
  | stop => exact absurd rfl hi
  | _ => rfl

/-- What comes behind the order to leave makes no difference. -/
theorem stepsToStop_append (stages : List Stage) {xs : List QueueItem} (h : .stop ∈ xs) (ys : List QueueItem) :
    stepsToStop stages (xs ++ ys) = stepsToStop stages xs := by
  induction xs with
  | nil => cases h
  | cons x xs ih =>
    by_cases hx : x = .stop
    · subst hx
      rfl
    · have hmem : .stop ∈ xs := (List.mem_cons.1 h).resolve_left (Ne.symm hx)
      rw [List.cons_append, stepsToStop_cons stages hx, stepsToStop_cons stages hx, ih hmem]

theorem stepsToLeave_placed {item : QueueItem} {rest : List QueueItem} {bound n : Nat} {calls : List SinkCall}
    {s t : Session σ (Recorded κ)} {due : Option DueWrite}
    (hqueue : s.engine.queue = some ⟨rest, n⟩) (hbound : 0 < bound)
    (hd : Handled env item bound calls s due t) :
    stepsToLeave (placed due t) < bound + stepsToStop s.engine.stages rest := by
  have hwaiting : waiting (placed due t) = rest := by
    rw [waiting_placed, waiting, hd.keeps.queue, hqueue]
    rfl
  have hstages : (placed due t).engine.stages = s.engine.stages :=
    (congrArg Core.stages (core_placed due t)).trans hd.keeps.stages
  cases due with
  | none =>
    show stepsToStop _ (waiting (placed none t)) < _
    rw [hwaiting, hstages]
    omega
  | some due =>
    have hnext := (hd.next due.1 due.2 rfl).2
    show stepsLeft due.2 + stepsToStop _ (waiting (placed (some due) t)) < _
    rw [hwaiting, hstages]
    omega

section

variable [Drain κ] (herror : env.QuietOn Notice.isError)

include herror

omit herror in
theorem consume_of_inactive (h : isActive w.session.engine.consumer = false) : w.consume env = w := by
  simp [Watched.consume, perform_consume_of_inactive h]

omit [Drain κ] herror in
/-- **The consumer leaves** when it has taken the order to. -/
theorem Sound.leave (h : Sound env w) {rest : List QueueItem} (hc : w.session.engine.consumer = .waiting)
    (hw : waiting w.session = .stop :: rest) :
    Sound env { w with
      session := { w.session with engine.consumer := .over, engine.queue := some ⟨rest, rest.length⟩ }
      taken := w.taken ++ [.stop] } := by
  have hbefore : .stop ∉ w.taken := h.stands.stop_notMem (by rw [hc]; rfl)
  have hput : .stop ∈ w.put := by
    rw [h.order, hw]
    exact List.mem_append_right _ List.mem_cons_self
  refine ⟨?_, .over hbefore, rfl, h.sink, ?_, fun hover => ?_, fun hprocessed hmem => ?_⟩
  · rw [List.append_assoc]
    exact h.order.trans (by rw [hw]; rfl)
  · cases h.phase with
    | attended _ hnot => exact absurd hput hnot
    | emptying hcall hs _ _ => exact .emptying hcall hs hput (by simp)
    | closing _ _ habsent => cases hc.symm.trans habsent
    | atRest hrest => cases hc.symm.trans hrest.consumer
  · cases hover
  · have hmem' : .finished ∈ w.taken := by simpa using hmem
    refine (h.ended hprocessed hmem').imp_right ?_
    rintro ⟨v, rest, hwriting⟩
    cases hc.symm.trans hwriting

/-- The consumer takes an item. -/
theorem Sound.take (h : Sound env w) (hc : w.session.engine.consumer = .waiting) {item : QueueItem}
    {rest : List QueueItem} (hw : waiting w.session = item :: rest) (hi : item ≠ .stop) :
    Sound env (w.consume env) ∧ stepsToLeave (w.consume env).session < stepsToLeave w.session := by
  have hact : isActive w.session.engine.consumer := by rw [hc]; rfl
  have hqueue := h.queue
  rw [hc, hw] at hqueue
  obtain ⟨due, t, hp, hd⟩ := take_step herror hc hqueue hi
  have hwaiting : waiting (placed due t) = rest := by
    rw [waiting_placed, waiting, hd.keeps.queue]
    rfl
  have htaken : w.consume env = { w with session := placed due t, taken := w.taken ++ [item] } := by
    rw [Watched.consume, hp, hw, hwaiting]
    simp
  have horder : w.put = w.taken ++ [item] ++ rest := by
    rw [h.order, hw, List.append_assoc]
    rfl
  have hended : env.QuietOn Notice.isProcessed → .finished ∈ w.taken → item ≠ .finished →
      w.session.engine.ended = some true := by
    intro hprocessed hmem _
    refine (h.ended hprocessed hmem).resolve_right ?_
    rintro ⟨v, rest, hwriting⟩
    cases hc.symm.trans hwriting
  rw [htaken]
  refine ⟨h.piece hact hi (h.stands.stop_notMem hact) horder
    (s := { w.session with engine.queue := some ⟨rest, rest.length + 1⟩ }) rfl h.sink hended hd (state_of_consume hp), ?_⟩
  have hless := stepsToLeave_placed rfl (itemSteps_pos _ item) hd
  simpa only [stepsToLeave, hc, hw, stepsToStop_cons _ hi] using hless

/-- A write of the consumer comes to its end. -/
theorem Sound.write (h : Sound env w) {v : Value} {next : Handling}
    (hc : w.session.engine.consumer = .writing v next) :
    Sound env (w.consume env) ∧ stepsToLeave (w.consume env).session < stepsToLeave w.session := by
  have hact : isActive w.session.engine.consumer := by rw [hc]; rfl
  have hqueue := h.queue
  have hstands := h.stands
  rw [hc] at hqueue hstands
  generalize htaken : w.taken = taken at hstands
  cases hstands with
  | @writing before item _ _ hbefore hf =>
    obtain ⟨due, t, hp, hd⟩ := write_step herror hc hf h.sink
    have hwaiting : waiting (placed due t) = waiting w.session := by
      rw [waiting_placed, waiting, waiting, hd.keeps.queue]
    have hwritten : w.consume env = { w with session := placed due t, taken := before ++ [item] } := by
      rw [Watched.consume, hp, hwaiting, htaken]
      simp
    have horder : w.put = before ++ [item] ++ waiting w.session := by rw [h.order, htaken]
    have hended : env.QuietOn Notice.isProcessed → .finished ∈ before → item ≠ .finished →
        w.session.engine.ended = some true := by
      intro hprocessed hmem hnot
      have hmem' : .finished ∈ w.taken := htaken ▸ List.mem_append_left _ hmem
      refine (h.ended hprocessed hmem').resolve_right ?_
      rintro ⟨v', rest, hwriting⟩
      obtain ⟨rfl, rfl⟩ := Consumer.writing.inj (hc.symm.trans hwriting)
      cases item <;> first | exact hnot rfl | cases hf
    rw [hwritten]
    refine ⟨h.piece hact (ne_stop_of_follows hf) hbefore horder hqueue h.sink hended hd (state_of_consume hp), ?_⟩
    have hless := stepsToLeave_placed hqueue (stepsLeft_pos next) hd
    simpa only [stepsToLeave, hc] using hless

/-- **A turn of the consumer** leaves everything in order, and brings the consumer nearer to its leaving if it has been
told to leave. -/
theorem Sound.consume (h : Sound env w) :
    Sound env (w.consume env) ∧ (isActive w.session.engine.consumer → .stop ∈ waiting w.session →
      stepsToLeave (w.consume env).session < stepsToLeave w.session) := by
  cases hc : w.session.engine.consumer with
  | waiting =>
    have hqueue := h.queue
    rw [hc] at hqueue
    cases hw : waiting w.session with
    | nil =>
      rw [hw] at hqueue
      have hsame : w.consume env = w := by simp [Watched.consume, perform_consume_nil hc hqueue]
      rw [hsame]
      exact ⟨h, fun _ hmem => by cases hmem⟩
    | cons item rest =>
      by_cases hi : item = .stop
      · subst hi
        rw [hw] at hqueue
        have hleft : w.consume env = { w with
            session := { w.session with engine.consumer := .over, engine.queue := some ⟨rest, rest.length⟩ }
            taken := w.taken ++ [.stop] } := by
          rw [Watched.consume, perform_consume_stop hc hqueue, hw]
          simp [waiting, busy]
        rw [hleft]
        refine ⟨h.leave hc hw, fun _ _ => ?_⟩
        simp [stepsToLeave, hc, hw, stepsToStop]
      · obtain ⟨hsound, hless⟩ := h.take herror hc hw hi
        exact ⟨hsound, fun _ _ => hless⟩
  | writing v next =>
    obtain ⟨hsound, hless⟩ := h.write herror hc
    exact ⟨hsound, fun _ _ => hless⟩
  | _ =>
    have hinactive : isActive w.session.engine.consumer = false := by rw [hc]; rfl
    rw [consume_of_inactive hinactive]
    exact ⟨h, fun hact => by cases hact⟩

end

/-! ### Turns of the others -/

theorem AtRest.others {items : List QueueItem} {t : Session σ (Recorded κ)} (h : AtRest w) (hj : Joins items w.session t)
    (hstate : t.engine.state = w.session.engine.state) : AtRest (w.others t w.call) := by
  obtain ⟨before, hbefore⟩ := h.discarded
  refine ⟨h.call, hstate.trans h.state, hj.consumer.trans h.consumer, ?_, before, ?_⟩
  · show (sinkCalls t).getLast? = _
    rw [sinkCalls, show t.engine.sink = w.session.engine.sink from congrArg Core.sink hj.core]
    exact h.closed
  · exact (congrArg Core.store hj.core).trans hbefore

/-- **A turn of the source** leaves everything in order. -/
theorem Sound.source (h : Sound env w) (f : Source σ → Source σ) (sent : Option SourceSignal) :
    Sound env (w.source env f sent) := by
  obtain ⟨items, hi, hj⟩ := joins_sourceStep env f sent h.queue_isSome
  have hstill := still_sourceStep env f sent w.session
  have hput : (w.source env f sent).put = w.put ++ items := put_others h hj
  refine h.others hj ?_
  cases h.phase with
  | attended hcall hnot =>
    refine .attended ?_ ?_
    · show Attended w.call (perform (sourceStep env f sent) w.session).2.engine.state
      rw [hstill.state]
      exact hcall
    · show .stop ∉ (w.source env f sent).put
      rw [hput, List.mem_append, not_or]
      exact ⟨hnot, hi⟩
  | emptying hcall hs hmem hc =>
    refine .emptying hcall (hstill.state.trans hs) ?_ (by rw [← hj.consumer] at hc; exact hc)
    show .stop ∈ (w.source env f sent).put
    rw [hput]
    exact List.mem_append_left _ hmem
  | closing hcall hs hc => exact .closing hcall (hstill.state.trans hs) (hj.consumer.trans hc)
  | atRest hrest => exact .atRest (hrest.others hj hstill.state)

theorem others_self : w.others w.session w.call = w := by simp [Watched.others]

/-- The consumer is there as long as it has not been told to leave. -/
theorem Sound.active (h : Sound env w) (hput : .stop ∉ w.put) : isActive w.session.engine.consumer := by
  by_contra hact
  refine hput ?_
  rw [h.order]
  exact List.mem_append_left _ (h.stands.stop_mem (Bool.not_eq_true _ ▸ hact))

/-- Nothing more comes before the order to leave. -/
theorem Sound.attended (h : Sound env w) {items : List QueueItem} {t : Session σ (Recorded κ)} {call : Option EngineCall}
    (hj : Joins items w.session t) (hnot : .stop ∉ w.put) (hi : .stop ∉ items) (hcall : Attended call t.engine.state) :
    Sound env (w.others t call) := by
  refine h.others hj (.attended hcall ?_)
  rw [put_others h hj, List.mem_append, not_or]
  exact ⟨hnot, hi⟩

/-- The consumer has been told to leave. -/
theorem Sound.emptying (h : Sound env w) {items : List QueueItem} {t : Session σ (Recorded κ)}
    (hj : Joins (items ++ [.stop]) w.session t) (hnot : .stop ∉ w.put) (hstate : t.engine.state = .stopping) :
    Sound env (w.others t (some .emptyingQueue)) := by
  refine h.others hj (.emptying rfl hstate ?_ ?_)
  · rw [put_others h hj]
    exact List.mem_append_right _ (List.mem_append_right _ List.mem_cons_self)
  · show t.engine.consumer ≠ .absent
    rw [hj.consumer]
    exact active_ne_absent (h.active hnot)

variable [Feed σ] [Drain κ]

omit [Drain κ] in
/-- An engine that is not at work cannot be stopped again. -/
theorem stop_eq_self (hcall : w.call = none) (hstate : w.session.engine.state.leadsTo .stopping = false) :
    w.stop env = w := by
  rw [Watched.stop, perform_stop_of_ne env hstate, pending, ← hcall]
  exact others_self

omit [Drain κ] in
/-- **The caller stops the engine.** -/
theorem Sound.stop (h : Sound env w) (hcall : w.call = none) : Sound env (w.stop env) := by
  cases h.phase with
  | attended hattended hnot =>
    rw [hcall] at hattended
    generalize hstate : w.session.engine.state = state at hattended
    cases hattended
    obtain ⟨t, ht, ⟨announces, hp, hj⟩ | ⟨hp, hj⟩⟩ := stop_returns hstate h.queue_isSome (h.active hnot)
    · rw [Watched.stop, hp]
      exact h.attended hj hnot List.not_mem_nil (by rw [ht]; exact .stopping announces)
    · rw [Watched.stop, hp]
      have hjoins : Joins ([] ++ [.stop]) w.session t := hj
      exact h.emptying hjoins hnot ht
  | emptying hc => cases hcall.symm.trans hc
  | closing hc => cases hcall.symm.trans hc
  | atRest hrest =>
    rw [stop_eq_self hcall (by rw [hrest.state]; rfl)]
    exact h

/-- While the consumer is there, the caller waits for it. -/
theorem goOn_of_active (hcall : w.call = some .emptyingQueue) (hact : isActive w.session.engine.consumer) :
    w.goOn env = w := by
  have hp : perform (proceed env .emptyingQueue) w.session = (.ok (some .emptyingQueue), w.session) := by
    rw [proceed, awaitConsumer, perform_bind_ok (perform_get _)]
    cases hc : w.session.engine.consumer with
    | waiting | writing => rfl
    | _ =>
      rw [hc] at hact
      cases hact
  rw [Watched.goOn, hcall]
  dsimp only
  rw [hp, pending, ← hcall]
  exact others_self

/-- Once the consumer has left, the caller closes the sink. -/
theorem goOn_of_over (hcall : w.call = some .emptyingQueue) (hover : w.session.engine.consumer = .over)
    (hsink : w.session.engine.sink.isSome) :
    w.goOn env = { w with session := { w.session with engine.consumer := .absent }, call := some .closingSink } := by
  have hp : perform (proceed env .emptyingQueue) w.session =
      (.ok (some .closingSink), { w.session with engine.consumer := .absent }) := by
    rw [proceed, awaitConsumer, perform_bind_ok (perform_get _), hover]
    exact (perform_bind_ok rfl).trans (perform_afterConsumer hsink)
  rw [Watched.goOn, hcall]
  dsimp only
  rw [hp]
  simp [Watched.others, pending, waiting]

omit [Feed σ] [Drain κ] in
/-- The consumer is forgotten once it has left. -/
theorem Sound.left (h : Sound env w) (hs : w.session.engine.state = .stopping)
    (hover : w.session.engine.consumer = .over) :
    Sound env { w with session := { w.session with engine.consumer := .absent }, call := some .closingSink } := by
  have hqueue := h.queue
  have hstands := h.stands
  rw [hover] at hqueue hstands
  refine ⟨h.order, ?_, hqueue, h.sink, .closing rfl hs rfl, fun hw => ?_, fun hprocessed hmem => ?_⟩
  · show Stands w.taken .absent
    generalize w.taken = taken at hstands
    cases hstands with
    | «over» hbefore => exact .absent hbefore
  · cases hw
  · refine .inl ((h.ended hprocessed hmem).resolve_right ?_)
    rintro ⟨v, rest, hwriting⟩
    cases hover.symm.trans hwriting

/-- The caller closes the sink, and the engine has stopped. -/
theorem goOn_of_closing (herror : env.QuietOn Notice.isError) (h : Sound env w) (hcall : w.call = some .closingSink)
    (hc : w.session.engine.consumer = .absent) : Sound env (w.goOn env) ∧ AtRest (w.goOn env) := by
  obtain ⟨hnone, hkeeps, hstate, hdiscarded⟩ := close_ends herror h.sink
  generalize ht : (perform (proceed env .closingSink) w.session).2 = t at hkeeps hstate hdiscarded
  have hclosed : w.goOn env = { w with session := t, call := none } := by
    rw [Watched.goOn, hcall]
    dsimp only
    rw [hnone, ht]
    simp [Watched.others, waiting, hkeeps.queue]
  have hwaiting : waiting t = waiting w.session := by rw [waiting, waiting, hkeeps.queue]
  have habsent : t.engine.consumer = .absent := hkeeps.consumer.trans hc
  have hrest : AtRest { w with session := t, call := none } := by
    refine ⟨rfl, hstate, habsent, ?_, hdiscarded⟩
    rw [hkeeps.calls, List.getLast?_append, List.getLast?_singleton, Option.some_or]
  rw [hclosed]
  refine ⟨⟨?_, ?_, ?_, ?_, .atRest hrest, fun hw => ?_, fun hprocessed hmem => ?_⟩, hrest⟩
  · rw [hwaiting]
    exact h.order
  · rw [hkeeps.consumer]
    exact h.stands
  · rw [hkeeps.queue, hkeeps.consumer, hwaiting]
    exact h.queue
  · rw [hkeeps.sink]
    exact h.sink
  · cases hw.symm.trans habsent
  · refine .inl (hkeeps.ended ((h.ended hprocessed hmem).resolve_right ?_))
    rintro ⟨v, rest, hwriting⟩
    cases hc.symm.trans hwriting

/-- **The caller goes on**, and a start comes to its end. -/
theorem Sound.goOn (herror : env.QuietOn Notice.isError) (h : Sound env w)
    (hrun : w.call = some .startingSource → (w.goOn env).session.engine.state = .running) : Sound env (w.goOn env) := by
  cases hcall : w.call with
  | none =>
    rw [Watched.goOn, hcall]
    exact h
  | some call =>
    cases h.phase with
    | attended hattended hnot =>
      rw [hcall] at hattended
      generalize hstate : w.session.engine.state = state at hattended
      rw [Watched.goOn, hcall] at hrun ⊢
      cases hattended with
      | starting =>
        have hrunning : (perform (startSource env) w.session).2.engine.state = .running := hrun rfl
        obtain ⟨hnone, hj⟩ := start_ends (h.active hnot) hstate hrunning
        dsimp only [proceed]
        rw [hnone]
        exact h.attended hj hnot List.not_mem_nil (by rw [hrunning]; exact .running)
      | stopping announces =>
        obtain ⟨items, t, hp, hi, hj⟩ := stopSource_returns herror announces h.queue_isSome (h.active hnot)
        have hpiece := piece_stopSource env announces w.session hstate
        dsimp only [proceed]
        rw [hp] at hpiece ⊢
        exact h.emptying hj hnot ((hpiece.next rfl).2.trans hstate)
    | emptying hc hs hput hne =>
      cases hconsumer : w.session.engine.consumer with
      | waiting | writing =>
        rw [goOn_of_active hc (by rw [hconsumer]; rfl)]
        exact h
      | «over» =>
        rw [goOn_of_over hc hconsumer h.sink]
        exact h.left hs hconsumer
      | absent => exact absurd hconsumer hne
      | _ =>
        have hstands := h.stands
        rw [hconsumer] at hstands
        generalize w.taken = taken at hstands
        cases hstands
    | closing hc hs habsent => exact (goOn_of_closing herror h hc habsent).1
    | atRest hrest => cases hcall.symm.trans hrest.call

/-- **Every turn leaves everything in order**, if no subscriber fails on errors. -/
theorem Sound.turn (herror : env.QuietOn Notice.isError) {w' : Watched σ (Recorded κ)} (h : Sound env w)
    (ht : Deed env w w') : Sound env w' := by
  cases ht with
  | source f sent => exact h.source f sent
  | consume => exact (h.consume herror).1
  | goOn hrun => exact h.goOn herror hrun
  | stop hcall => exact h.stop hcall

theorem Sound.reaches (herror : env.QuietOn Notice.isError) {w' : Watched σ (Recorded κ)} (h : Sound env w)
    (hw : Watched.Reaches env w w') : Sound env w' := by
  induction hw with
  | refl => exact h
  | tail _ ht ih => exact ih.turn herror ht

omit [Feed σ] [Drain κ] in
/-- Everything is in order when a start has come to the source. -/
theorem Sound.begun {idle s : Session σ (Recorded κ)}
    (hstart : perform (Engine.start env) idle = (.ok (some .startingSource), s)) : Sound env (Watched.begun s) := by
  obtain ⟨hstate, hqueue, hconsumer, hsink⟩ := start_begun hstart
  have hwaiting : waiting s = [] := by
    rw [waiting, hqueue]
    rfl
  refine ⟨?_, ?_, ?_, hsink, .attended ?_ List.not_mem_nil, fun _ item hitem => ?_, fun _ hmem => ?_⟩
  · show [] = [] ++ waiting s
    rw [hwaiting]
    rfl
  · show Stands [] s.engine.consumer
    rw [hconsumer]
    exact .waiting List.not_mem_nil
  · show s.engine.queue = some ⟨waiting s, (waiting s).length + busy s.engine.consumer⟩
    rw [hqueue, hwaiting, hconsumer]
    rfl
  · show Attended (some .startingSource) s.engine.state
    rw [hstate]
    exact .starting
  · cases hitem
  · cases hmem

end

end Engine

end EventPipeline
