import EventPipeline.Engine.Lifecycle
import EventPipeline.Proofs.Engine.Confined
import Mathlib.Data.List.Basic
import Mathlib.Logic.Relation

/-!
# Every order of steps is the sequential one

An engine between its start and the end of its stop. Three parties act on it, one step at a time and in
any order: the *source*, which may send anything until its own stop has returned; the *consumer*, which
may be held up at any write while others act; and the *caller*, who has started the engine and stops it
once. `Step` says what each of them can do, and `Reaches` is any number of steps.

Four things are kept beside the session: where the call of the caller stands, the items that have come
to the queue, those that the consumer has taken, and what the consumer has told.

The main statement is `stopped_as_sequential`. Once the engine has stopped, every item that came has been
handled, in the order of its coming, and all that the handling of items does is what it does when the
items are handled one after the other, with nothing in between: the calls of the sink, the buffer, the
spilled values, and what was told. The invariant behind it (`Faithful`) says that this will be so if the
consumer does what is left to do: the rest of its item, and then the items in the queue.

No subscriber may fail, and no sink may depend on what has been printed.
-/

namespace EventPipeline

open SinkAction (Oblivious)
open Relation (ReflTransGen)

variable {σ κ : Type}

namespace Engine

/-! ### Items and notices -/

/-- Handles an item to the end. -/
def handleItem [Drain κ] (env : Environment σ κ) : QueueItem → EngineAction σ κ Unit
  | .event v => process env v
  | .finished => finish env
  | .stop => return ()

/-- Handles items, one after the other. -/
def handleAll [Drain κ] (env : Environment σ κ) : List QueueItem → EngineAction σ κ Unit
  | [] => return ()
  | item :: rest => do
    handleItem env item
    handleAll env rest

/-- The items in the queue. -/
def waiting (s : Session σ κ) : List QueueItem := (s.engine.queue.map Queue.items).getD []

/-- The item came from the source. -/
def isArrival : QueueItem → Bool
  | .stop => false
  | _ => true

/-- The item is an event. -/
def isEvent : QueueItem → Bool
  | .event _ => true
  | _ => false

/-- The notice says what became of an event: the sink took a value, a filter rejected it, or values were
spilled. -/
def isProgress : Notice → Bool
  | .engine (.processed _) | .engine (.filtered _) | .engine (.spillover ..) => true
  | _ => false

/-- The number of events received. -/
def eventsReceived (s : Session σ κ) : Int := s.engine.log.counter .received

/-! ### Parties and their steps -/

/-- An engine between its start and the end of its stop. -/
structure Interleaving (σ κ : Type) where
  /-- The engine and what it acts on. -/
  session : Session σ κ
  /-- Where the call to start or to stop the engine stands, if there is one. -/
  call : Option EngineCall
  /-- The items that have come to the queue, oldest first. -/
  arrived : List QueueItem
  /-- The items that the consumer has taken. -/
  taken : List QueueItem
  /-- What the consumer has told. -/
  told : List Notice

namespace Interleaving

/-- The caller waits for the source to start. -/
def begun (s : Session σ κ) : Interleaving σ κ := ⟨s, some .startingSource, [], [], []⟩

/-- The stop of the source has not returned. -/
def sourceActs (c : Interleaving σ κ) : Prop :=
  match c.call with
  | some .startingSource | some (.stoppingSource _) => True
  | none => c.session.engine.state = .running
  | _ => False

/-- After a step of the source or the caller. -/
def afterOthers (c : Interleaving σ κ) (s : Session σ κ) (call : Option EngineCall) : Interleaving σ κ :=
  { c with
    session := s
    call := call
    arrived := c.arrived ++ ((waiting s).drop (waiting c.session).length).filter isArrival }

/-- After a step of the consumer. -/
def afterConsumer (c : Interleaving σ κ) (s : Session σ κ) : Interleaving σ κ :=
  { c with
    session := s
    taken := c.taken ++ ((waiting c.session).take ((waiting c.session).length - (waiting s).length)).filter isArrival
    told := c.told ++ s.world.notices.drop c.session.world.notices.length }

end Interleaving

open Interleaving (begun)

/-- The source changes in any way, and sends a signal or none. -/
def sourceStep (env : Environment σ κ) (f : Source σ → Source σ) (sent : Option SourceSignal) :
    EngineAction σ κ Unit := do
  change fun e => { e with source := e.source.map f }
  match sent with
  | some signal => hear env signal
  | none => return ()

/-- A step of one of the three parties. -/
inductive Step [Feed σ] [Drain κ] (env : Environment σ κ) : Interleaving σ κ → Interleaving σ κ → Prop where
  /-- The source acts. -/
  | source (c : Interleaving σ κ) (f : Source σ → Source σ) (sent : Option SourceSignal) (h : c.sourceActs) :
      Step env c (c.afterOthers (perform (sourceStep env f sent) c.session).2 c.call)
  /-- The consumer acts. -/
  | consumer (c : Interleaving σ κ) : Step env c (c.afterConsumer (perform (consume env) c.session).2)
  /-- The caller goes on with a call, and a start comes to its end. -/
  | caller (c : Interleaving σ κ) (call : EngineCall) (next : Option EngineCall) (s : Session σ κ)
      (h : c.call = some call) (hstart : call = .startingSource → next = none)
      (hp : perform (proceed env call) c.session = (.ok next, s)) : Step env c (c.afterOthers s next)
  /-- The caller, whose start has come to its end, stops the engine. -/
  | stop (c : Interleaving σ κ) (next : Option EngineCall) (s : Session σ κ) (h : c.call = none)
      (hp : perform (Engine.stop env) c.session = (.ok next, s)) : Step env c (c.afterOthers s next)

/-- Any number of steps. -/
abbrev Reaches [Feed σ] [Drain κ] (env : Environment σ κ) : Interleaving σ κ → Interleaving σ κ → Prop :=
  ReflTransGen (Step env)

theorem afterOthers_self (c : Interleaving σ κ) : c.afterOthers c.session c.call = c := by
  simp [Interleaving.afterOthers]

theorem afterConsumer_self (c : Interleaving σ κ) : c.afterConsumer c.session = c := by
  simp [Interleaving.afterConsumer]

/-! ### What is left to do -/

/-- The write that is due. -/
def due? : Consumer → Option DueWrite
  | .writing v next => some (v, next)
  | _ => none

/-- The consumer takes part in the handling of items. -/
def isActive : Consumer → Bool
  | .waiting | .writing .. => true
  | _ => false

theorem due?_of_inactive {consumer : Consumer} (h : isActive consumer = false) : due? consumer = none := by
  cases consumer <;> first | rfl | cases h

/-- All that the consumer has left to do: the rest of its item, and the items in the queue. -/
def remaining [Drain κ] (env : Environment σ κ) (s : Session σ κ) : EngineAction σ κ Unit := do
  settle env (due? s.engine.consumer)
  handleAll env (waiting s)

/-- All is as it would be if the items had been handled one after the other from a session on, once the
consumer has done what is left to do. -/
structure Faithful [Drain κ] (env : Environment σ κ) (s : Session σ κ) (c : Interleaving σ κ) : Prop where
  /-- What is left to do leads to the end of the sequential run. -/
  complete : ∃ ns all t t', Gives (remaining env c.session) c.session () ns t ∧
    Gives (handleAll env c.arrived) s () all t' ∧ t.core = t'.core ∧ c.told ++ ns = all
  /-- Every event that came has been counted. -/
  counted : eventsReceived c.session = eventsReceived s + c.arrived.countP isEvent
  /-- Nobody but the consumer tells what became of an event. -/
  progress : c.session.world.notices.filter isProgress =
    s.world.notices.filter isProgress ++ c.told.filter isProgress
  /-- The items are taken in the order of their coming. -/
  order : c.taken ++ (waiting c.session).filter isArrival = c.arrived

/-- The session after a piece of the handling of an item. -/
def placed (due : Option DueWrite) (s : Session σ κ) : Session σ κ :=
  match due with
  | some (v, next) => { s with engine.consumer := .writing v next }
  | none =>
    { s with
      engine.consumer := .waiting
      engine.queue := s.engine.queue.map fun q => { q with unfinished := q.unfinished - 1 } }

theorem core_placed (due : Option DueWrite) (s : Session σ κ) : (placed due s).core = s.core := by
  cases due <;> rfl

theorem due?_placed (due : Option DueWrite) (s : Session σ κ) : due? (placed due s).engine.consumer = due := by
  cases due <;> rfl

theorem waiting_placed (due : Option DueWrite) (s : Session σ κ) : waiting (placed due s) = waiting s := by
  cases due with
  | some _ => rfl
  | none =>
    unfold waiting placed
    cases s.engine.queue <;> rfl

theorem eventsReceived_placed (due : Option DueWrite) (s : Session σ κ) :
    eventsReceived (placed due s) = eventsReceived s := by
  cases due <;> rfl

theorem notices_placed (due : Option DueWrite) (s : Session σ κ) :
    (placed due s).world.notices = s.world.notices := by
  cases due <;> rfl

section

variable {env : Environment σ κ} {s s₀ t : Session σ κ} {c : Interleaving σ κ}

/-- A piece that does not fail is followed by the next one, or the item is done. -/
theorem perform_handle {a : EngineAction σ κ (Option DueWrite)} {due : Option DueWrite} {ns : List Notice}
    (h : Gives a s due ns t) : perform (handle env a) s = (.ok (), placed due t) := by
  rw [handle, attempt, perform_bind_ok (perform_lift a s), h.result]
  rcases due with _ | ⟨v, next⟩ <;> rfl

variable [Drain κ] (hq : env.Quiet) (hk : ∀ v, Oblivious (Drain.write v : SinkAction κ Unit))

include hq hk

theorem confined_handleItem (item : QueueItem) : Confined (handleItem env item) := by
  cases item with
  | event v =>
    rw [handleItem, ← beginEvent_settle]
    exact (confined_beginEvent hq v).bind fun due => confined_settle hq hk due
  | finished =>
    rw [handleItem, ← beginFlush_settle]
    exact (confined_beginFlush hq).bind fun due => confined_settle hq hk due
  | stop => exact Confined.pure _

theorem confined_items (items : List QueueItem) : Confined (handleAll env items) := by
  induction items with
  | nil => exact Confined.pure _
  | cons item items ih => exact (confined_handleItem hq hk item).bind fun _ => ih

omit hq hk in
theorem handleAll_append (xs ys : List QueueItem) :
    handleAll env (xs ++ ys) = handleAll env xs >>= fun _ => handleAll env ys := by
  induction xs with
  | nil => rfl
  | cons x xs ih => simp only [List.cons_append, handleAll, ih, bind_assoc]

theorem confined_remaining (s : Session σ κ) : Confined (remaining env s) :=
  (confined_settle hq hk _).bind fun _ => confined_items hq hk _

omit hq hk in
/-- Nothing has come at first. -/
theorem Faithful.begun (hc : s.engine.consumer = .waiting) (hw : waiting s = []) :
    Faithful env s (begun s) := by
  refine ⟨?_, ?_, ?_, ?_⟩
  · refine ⟨[], [], s, s, ?_, Gives.pure () s, rfl, rfl⟩
    show Gives (remaining env s) s () [] s
    rw [remaining, hc, hw]
    exact Gives.pure () s
  · simp [Interleaving.begun]
  · simp [Interleaving.begun]
  · simp [Interleaving.begun, hw]

end

/-! ### Steps of others -/

/-- What others may do: they put items into the queue, which are counted. They leave the core and the
consumer alone and do not tell what became of events. -/
structure Beside (items : List QueueItem) (s t : Session σ κ) : Prop where
  /-- The core is the same. -/
  core : t.core = s.core
  /-- The consumer is the same. -/
  consumer : t.engine.consumer = s.engine.consumer
  /-- There still is a queue if there was one. -/
  queue : t.engine.queue.isSome = s.engine.queue.isSome
  /-- The items are in the queue. -/
  waiting : waiting t = Engine.waiting s ++ items
  /-- The events among them have been counted. -/
  counted : eventsReceived t = eventsReceived s + items.countP isEvent
  /-- Nobody was told what became of an event. -/
  progress : t.world.notices.filter isProgress = s.world.notices.filter isProgress

theorem Beside.trans {xs ys : List QueueItem} {s t u : Session σ κ} (h : Beside xs s t) (h' : Beside ys t u) :
    Beside (xs ++ ys) s u where
  core := h'.core.trans h.core
  consumer := h'.consumer.trans h.consumer
  queue := h'.queue.trans h.queue
  waiting := by rw [h'.waiting, h.waiting, List.append_assoc]
  counted := by rw [h'.counted, h.counted, List.countP_append]; omega
  progress := h'.progress.trans h.progress

instance : IsPreorder (Session σ κ) (Beside []) where
  refl s := ⟨rfl, rfl, rfl, (List.append_nil _).symm, by simp, rfl⟩
  trans _ _ _ h h' := h.trans h'

section

variable {env : Environment σ κ} {s s₀ t : Session σ κ} {c : Interleaving σ κ} [Drain κ] (hq : env.Quiet)
  (hk : ∀ v, Oblivious (Drain.write v : SinkAction κ Unit))

/-- Handling what did not come from the source is doing nothing. -/
theorem handleAll_filter (items : List QueueItem) :
    handleAll env (items.filter isArrival) = handleAll env items := by
  induction items with
  | nil => rfl
  | cons item items ih =>
    cases item with
    | stop => exact ih
    | event v => exact bind_congr fun _ => ih
    | finished => exact bind_congr fun _ => ih

include hq hk

/-- **Others may do what they like to the rest of the session.** -/
theorem Faithful.others (h : Faithful env s₀ c) {items : List QueueItem} (hb : Beside items c.session t)
    (call : Option EngineCall) : Faithful env s₀ (c.afterOthers t call) := by
  obtain ⟨hcore, hc, -, hw, hr, hn⟩ := hb
  have hitems : (c.afterOthers t call).arrived = c.arrived ++ items.filter isArrival := by
    rw [Interleaving.afterOthers, hw, List.drop_left]
  refine ⟨?_, ?_, hn.trans h.progress, ?_⟩
  · obtain ⟨ns, all, u, u', hu, hu', hcore', rfl⟩ := h.complete
    obtain ⟨v, hv, hcv⟩ := (confined_remaining hq hk c.session).transfer hu hcore.symm
    obtain ⟨⟨⟩, ms, w, hw'⟩ := (confined_items hq hk items).gives v
    obtain ⟨w', hw'', hcw⟩ := (confined_items hq hk items).transfer hw' (hcv.symm.trans hcore')
    refine ⟨ns ++ ms, c.told ++ ns ++ ms, w, w', ?_, ?_, hcw, (List.append_assoc _ _ _).symm⟩
    · have hrem : remaining env t = remaining env c.session >>= fun _ => handleAll env items := by
        rw [remaining, remaining, hc, hw, handleAll_append, bind_assoc]
      show Gives (remaining env t) t () (ns ++ ms) w
      rw [hrem]
      exact hv.bind hw'
    · rw [hitems, handleAll_append, handleAll_filter]
      exact hu'.bind hw''
  · have hcount : (items.filter isArrival).countP isEvent = items.countP isEvent := by
      rw [List.countP_filter]
      refine List.countP_congr fun item _ => ?_
      cases item <;> simp [isEvent, isArrival]
    show eventsReceived t = _
    rw [hitems, hr, h.counted, List.countP_append, hcount]
    omega
  · rw [hitems]
    show c.taken ++ (waiting t).filter isArrival = _
    rw [hw, List.filter_append, ← h.order, List.append_assoc]

/-! ### Steps of the consumer -/

/-- **A piece of what is left to do**, done by the consumer after it has taken items from the queue. The
consumer then stands where the piece led it. -/
theorem Faithful.consumed (h : Faithful env s₀ c) {a : EngineAction σ κ (Option DueWrite)} {due : Option DueWrite}
    {ns : List Notice} {t' : Session σ κ} (items : List QueueItem)
    (hcore : s.core = c.session.core) (hn : s.world.notices = c.session.world.notices)
    (hr : eventsReceived s = eventsReceived c.session) (hw : waiting c.session = items ++ waiting s)
    (hrem : remaining env c.session =
      a >>= fun due => settle env due >>= fun _ => handleAll env (waiting s))
    (ht : Gives a s due ns t) (hcore' : t'.core = t.core) (hdue : due? t'.engine.consumer = due)
    (hn' : t'.world.notices = t.world.notices) (hr' : eventsReceived t' = eventsReceived t)
    (hw' : waiting t' = waiting t) : Faithful env s₀ (c.afterConsumer t') := by
  have hwaiting : waiting t' = waiting s := by
    rw [hw', waiting, waiting, ht.within.queue]
  have hnotices : t'.world.notices = c.session.world.notices ++ ns := by
    rw [hn', ht.told, hn]
  have htold : (c.afterConsumer t').told = c.told ++ ns := by
    rw [Interleaving.afterConsumer, hnotices, List.drop_left]
  refine ⟨?_, ?_, ?_, ?_⟩
  · obtain ⟨ms, all, u, u', hu, hu', hcu, hall⟩ := h.complete
    have hrest : Confined (settle env due >>= fun _ => handleAll env (waiting s)) :=
      (confined_settle hq hk due).bind fun _ => confined_items hq hk _
    obtain ⟨v, hv, hcv⟩ := (confined_remaining hq hk c.session).transfer hu hcore.symm
    obtain ⟨⟨⟩, ls, w, hrun⟩ := hrest.gives t
    rw [hrem] at hv
    obtain ⟨-, rfl, rfl⟩ := hv.unique (ht.bind hrun)
    obtain ⟨w', hrun', hcw⟩ := hrest.transfer hrun hcore'.symm
    refine ⟨ls, all, w', u', ?_, hu', hcw.symm.trans (hcv.symm.trans hcu), ?_⟩
    · show Gives (remaining env t') t' () ls w'
      rw [remaining, hdue, hwaiting]
      exact hrun'
    · rw [htold, List.append_assoc]
      exact hall
  · have hreceived : eventsReceived t = eventsReceived s := ht.within.received
    show eventsReceived t' = _
    rw [hr', hreceived, hr]
    exact h.counted
  · rw [htold, List.filter_append, ← List.append_assoc, ← h.progress, ← List.filter_append, ← hnotices]
    rfl
  · have hlen : (waiting c.session).length - (waiting t').length = items.length := by
      rw [hwaiting, hw, List.length_append, Nat.add_sub_cancel]
    show c.taken ++ _ ++ (waiting t').filter isArrival = c.arrived
    rw [hlen, hwaiting, ← h.order, hw, List.take_left, List.filter_append, List.append_assoc]

/-- A piece of the handling of an item, as a step of the consumer. -/
theorem Faithful.handled (h : Faithful env s₀ c) {a : EngineAction σ κ (Option DueWrite)} (ha : Confined a)
    {s : Session σ κ} (items : List QueueItem) (hcore : s.core = c.session.core)
    (hn : s.world.notices = c.session.world.notices) (hr : eventsReceived s = eventsReceived c.session)
    (hw : waiting c.session = items ++ waiting s)
    (hrem : remaining env c.session = a >>= fun due => settle env due >>= fun _ => handleAll env (waiting s))
    (hp : perform (consume env) c.session = perform (handle env a) s) :
    ∃ t, perform (consume env) c.session = (.ok (), t) ∧ Faithful env s₀ (c.afterConsumer t) ∧
      t.engine.state = s.engine.state ∧ t.engine.queue.isSome = s.engine.queue.isSome ∧
      waiting t = waiting s ∧ isActive t.engine.consumer := by
  obtain ⟨due, ns, t, ht⟩ := ha.gives s
  refine ⟨placed due t, hp.trans (perform_handle ht), ?_, ?_, ?_, ?_, ?_⟩
  · exact h.consumed hq hk items hcore hn hr hw hrem ht (core_placed due t) (due?_placed due t)
      (notices_placed due t) (eventsReceived_placed due t) (waiting_placed due t)
  · rw [← ht.within.state]
    cases due <;> rfl
  · rw [← ht.within.queue]
    cases due with
    | some _ => rfl
    | none => exact Option.isSome_map
  · rw [waiting_placed, waiting, waiting, ht.within.queue]
  · cases due <;> rfl

/-- **What a step of the consumer comes to.** It takes the order to leave, or it handles a piece of an
item. -/
theorem Faithful.consumer_step (h : Faithful env s₀ c) (hqueue : c.session.engine.queue.isSome)
    (hact : isActive c.session.engine.consumer) :
    ∃ t, perform (consume env) c.session = (.ok (), t) ∧ Faithful env s₀ (c.afterConsumer t) ∧
      t.engine.state = c.session.engine.state ∧ t.engine.queue.isSome ∧
      ((waiting c.session = .stop :: waiting t ∧ t.engine.consumer = .over) ∨
        (isActive t.engine.consumer ∧ ∃ items, .stop ∉ items ∧ waiting c.session = items ++ waiting t)) := by
  cases hc : c.session.engine.consumer with
  | writing v next =>
    have hp : perform (consume env) c.session =
        perform (handle env (deliver env v >>= fun _ => resume env next)) c.session := by
      rw [consume, perform_bind_ok (perform_get _), hc]
      rfl
    have hrem : remaining env c.session = (deliver env v >>= fun _ => resume env next) >>= fun due =>
        settle env due >>= fun _ => handleAll env (waiting c.session) := by
      simp only [remaining, hc, due?, settle, ← resume_settle, bind_assoc]
    obtain ⟨t, ht, hf, hs, hqs, hw, ha⟩ := h.handled hq hk
      ((confined_deliver hq hk v).bind fun _ => confined_resume hq next) [] rfl rfl rfl rfl hrem hp
    exact ⟨t, ht, hf, hs, hqs.trans hqueue, .inr ⟨ha, [], List.not_mem_nil, by rw [hw]; rfl⟩⟩
  | waiting =>
    obtain ⟨⟨items, unfinished⟩, hqueue⟩ := Option.isSome_iff_exists.1 hqueue
    have hw : waiting c.session = items := by rw [waiting, hqueue]; rfl
    cases items with
    | nil =>
      refine ⟨c.session, ?_, (afterConsumer_self c).symm ▸ h, rfl, by rw [hqueue]; rfl, .inr ⟨?_, [], List.not_mem_nil, rfl⟩⟩
      · rw [consume, perform_bind_ok (perform_get _), hc]
        dsimp only
        rw [take, perform_bind_ok (perform_get _), hqueue]
        rfl
      · rw [hc]
        rfl
    | cons item rest =>
      -- the consumer takes the item from the queue first
      let popped : Session σ κ := { c.session with engine.queue := some ⟨rest, unfinished⟩ }
      have hrem : remaining env c.session = handleItem env item >>= fun _ => handleAll env rest := by
        rw [remaining, hc, hw]
        rfl
      have hpop : perform (consume env) c.session =
          perform (match item with
            | .event v => handle env (beginEvent env v)
            | .finished => handle env (beginFlush env)
            | .stop => finishItem .over) popped := by
        rw [consume, perform_bind_ok (perform_get _), hc]
        dsimp only
        rw [take, perform_bind_ok (perform_get _), hqueue]
        rfl
      cases item with
      | stop =>
        refine ⟨_, hpop, ?_, rfl, rfl, .inl ⟨hw, rfl⟩⟩
        exact h.consumed hq hk (a := pure none) (s := popped) [.stop] rfl rfl rfl hw hrem (Gives.pure _ _) rfl rfl rfl rfl rfl
      | event v =>
        rw [handleItem, ← beginEvent_settle, bind_assoc] at hrem
        obtain ⟨t, ht, hf, hs, hqs, hwt, ha⟩ := h.handled hq hk (confined_beginEvent hq v) (s := popped)
          [.event v] rfl rfl rfl hw hrem hpop
        exact ⟨t, ht, hf, hs, hqs, .inr ⟨ha, [.event v], by simp, by rw [hw, hwt]; rfl⟩⟩
      | finished =>
        rw [handleItem, ← beginFlush_settle, bind_assoc] at hrem
        obtain ⟨t, ht, hf, hs, hqs, hwt, ha⟩ := h.handled hq hk (confined_beginFlush hq) (s := popped)
          [.finished] rfl rfl rfl hw hrem hpop
        exact ⟨t, ht, hf, hs, hqs, .inr ⟨ha, [.finished], by simp, by rw [hw, hwt]; rfl⟩⟩
  | _ =>
    rw [hc] at hact
    cases hact

end

end Engine

end EventPipeline
