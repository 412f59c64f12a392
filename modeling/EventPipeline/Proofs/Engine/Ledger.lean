import EventPipeline.Connector.Memory
import EventPipeline.Proofs.Engine.Items

/-!
# The ledger of an engine

Where the values go that aggregate stages take in. An engine answers requests: events, ends of the
stream, and reloads of spilled values; between them others may change files. The *ledger* of such a
run lists, in order, the values taken in (`pushed`), the windows that a reducer has taken (`reduced`)
and the batches that were written to files (`spilled`). It is read off the states of the run; nothing
is added to what the engine does.

The main statement is `nothing_lost`: after any requests the values taken in are, up to order, the
values of the reduced windows, of the pending files, which can all be read, and of the buffer. Without
a reload the order is kept too: windows and batches in the order in which they left, followed by the
buffer, are the values taken in.

Stages, reducers, subscribers and writes may fail at any time. Two things are asked for. Others, the
sink included, leave the spill files alone; and the values can be told from their JSON text, which means
that the keys of an object are names and differ from each other.
-/

namespace EventPipeline

open Spill (Stored Shed Untouched Spares Holds)
open scoped List

/-! ### Movements -/

/-- A movement of values. -/
inductive Movement where
  /-- An aggregate stage took a value in. -/
  | pushed (v : Value)
  /-- A reducer took a window. -/
  | reduced (window : List Value)
  /-- A batch was written to a file. -/
  | spilled (batch : List Value)

namespace Movement

/-- The values taken in. -/
def pushedIn (ms : List Movement) : List Value :=
  ms.filterMap fun
    | pushed v => some v
    | _ => none

/-- The windows that were reduced. -/
def reducedIn (ms : List Movement) : List (List Value) :=
  ms.filterMap fun
    | reduced w => some w
    | _ => none

/-- The windows and batches that left the buffer. -/
def leftIn (ms : List Movement) : List (List Value) :=
  ms.filterMap fun
    | pushed _ => none
    | reduced w => some w
    | spilled b => some b

@[simp] theorem pushedIn_append (ms ns : List Movement) : pushedIn (ms ++ ns) = pushedIn ms ++ pushedIn ns :=
  List.filterMap_append

@[simp] theorem reducedIn_append (ms ns : List Movement) : reducedIn (ms ++ ns) = reducedIn ms ++ reducedIn ns :=
  List.filterMap_append

@[simp] theorem leftIn_append (ms ns : List Movement) : leftIn (ms ++ ns) = leftIn ms ++ leftIn ns :=
  List.filterMap_append

@[simp] theorem pushedIn_spilled (bs : List (List Value)) : pushedIn (bs.map spilled) = [] := by
  induction bs <;> simp_all [pushedIn]

@[simp] theorem reducedIn_spilled (bs : List (List Value)) : reducedIn (bs.map spilled) = [] := by
  induction bs <;> simp_all [reducedIn]

@[simp] theorem leftIn_spilled (bs : List (List Value)) : leftIn (bs.map spilled) = bs := by
  induction bs <;> simp_all [leftIn]

/-- A visit as movements: the value, and then the window if it was reduced. -/
def ofVisit (v : Visit) : List Movement := pushed v.value :: (v.window?.map reduced).toList

@[simp] theorem pushedIn_visits (vs : List Visit) : pushedIn (vs.flatMap ofVisit) = vs.map Visit.value := by
  induction vs with
  | nil => rfl
  | cons v vs ih =>
    rw [List.flatMap_cons, pushedIn_append, ih, List.map_cons]
    cases h : v.window? <;> simp [ofVisit, pushedIn, h]

@[simp] theorem reducedIn_visits (vs : List Visit) : reducedIn (vs.flatMap ofVisit) = Chain.windows vs := by
  induction vs with
  | nil => rfl
  | cons v vs ih =>
    rw [List.flatMap_cons, reducedIn_append, ih, Chain.windows, Chain.windows, List.filterMap_cons]
    cases h : v.window? <;> simp [ofVisit, reducedIn, h]

@[simp] theorem leftIn_visits (vs : List Visit) : leftIn (vs.flatMap ofVisit) = Chain.windows vs := by
  induction vs with
  | nil => rfl
  | cons v vs ih =>
    rw [List.flatMap_cons, leftIn_append, ih, Chain.windows, Chain.windows, List.filterMap_cons]
    cases h : v.window? <;> simp [ofVisit, leftIn, h]

end Movement

open Movement

/-! ### What movements account for -/

/-- The movements account for the way from one state to another: what was stored in a directory is
stored still or has been put back, the values balance, and, if the order is kept, they do so in order. -/
def Accounts (dir : Path) (ordered : Prop) (ms : List Movement) (s t : SpillState) : Prop :=
  ∀ bs, Stored dir s bs → (∀ v ∈ bs.flatten ++ s.buffer ++ pushedIn ms, v.isJson = true) →
    ∃ bs', Stored dir t bs' ∧
      bs.flatten ++ s.buffer ++ pushedIn ms ~ (reducedIn ms).flatten ++ (bs'.flatten ++ t.buffer) ∧
      (ordered → (leftIn ms).flatten ++ t.buffer = s.buffer ++ pushedIn ms)

namespace Accounts

variable {dir : Path} {p : Prop} {ms ns : List Movement} {s t u : SpillState}

theorem mono {q : Prop} (h : Accounts dir p ms s t) (hq : q → p) : Accounts dir q ms s t := by
  intro bs hs hj
  obtain ⟨bs', ht, hperm, hlist⟩ := h bs hs hj
  exact ⟨bs', ht, hperm, fun hp => hlist (hq hp)⟩

/-- Accounts of two ways in a row. -/
theorem trans (h : Accounts dir p ms s t) (h' : Accounts dir p ns t u) : Accounts dir p (ms ++ ns) s u := by
  intro bs hs hj
  rw [pushedIn_append, ← List.append_assoc] at hj
  obtain ⟨bs', ht, hperm, hlist⟩ := h bs hs fun v hv => hj v (List.mem_append_left _ hv)
  obtain ⟨bs'', hu, hperm', hlist'⟩ := h' bs' ht fun v hv => by
    rcases List.mem_append.1 hv with hv | hv
    · exact hj v (List.mem_append_left _ (hperm.mem_iff.2 (List.mem_append_right _ hv)))
    · exact hj v (List.mem_append_right _ hv)
  refine ⟨bs'', hu, ?_, fun hp => ?_⟩
  · rw [pushedIn_append, reducedIn_append, List.flatten_append, ← List.append_assoc]
    calc bs.flatten ++ s.buffer ++ pushedIn ms ++ pushedIn ns
      _ ~ (reducedIn ms).flatten ++ (bs'.flatten ++ t.buffer) ++ pushedIn ns := hperm.append_right _
      _ = (reducedIn ms).flatten ++ (bs'.flatten ++ t.buffer ++ pushedIn ns) := List.append_assoc ..
      _ ~ (reducedIn ms).flatten ++ ((reducedIn ns).flatten ++ (bs''.flatten ++ u.buffer)) := hperm'.append_left _
      _ = (reducedIn ms).flatten ++ (reducedIn ns).flatten ++ (bs''.flatten ++ u.buffer) :=
        (List.append_assoc ..).symm
  · rw [leftIn_append, pushedIn_append, List.flatten_append, List.append_assoc, hlist' hp, ← List.append_assoc,
      hlist hp, List.append_assoc]

theorem refl (s : SpillState) : Accounts dir p [] s s := by
  refine fun bs hs _ => ⟨bs, hs, ?_, fun _ => ?_⟩ <;> simp [pushedIn, reducedIn, leftIn]

end Accounts

/-- The batches in the files of the records that have come since another state. -/
def spilledSince (s t : SpillState) : List (List Value) :=
  (t.spill.pending.drop s.spill.pending.length).map fun r =>
    match perform (Spill.readBatch r) t.files with
    | (.ok batch, _) => batch
    | _ => []

theorem spilledSince_eq {dir : Path} {s t : SpillState} {bs new : List (List Value)} (hs : Stored dir s bs)
    (ht : Stored dir t (bs ++ new)) (hj : ∀ v ∈ new.flatten, v.isJson = true) : spilledSince s t = new := by
  have h := List.forall₂_drop s.spill.pending.length ht.holds
  rw [hs.holds.length_eq, List.drop_left, ← hs.holds.length_eq] at h
  have hread := Spill.forall₂_readBatch h hj
  unfold spilledSince
  clear h hs ht hj
  generalize t.spill.pending.drop s.spill.pending.length = rs at hread
  induction hread with
  | nil => rfl
  | cons hr _ ih => rw [List.map_cons, hr, ih]

/-- Values that were shed went into the files of new records. -/
theorem Accounts.of_shed {dir : Path} {p : Prop} {s t : SpillState} (h : Shed dir s t) :
    Accounts dir p ((spilledSince s t).map .spilled) s t := by
  intro bs hs hj
  obtain ⟨new, ht, hb⟩ := h bs hs
  rw [spilledSince_eq hs ht fun v hv => hj v (by simp [← hb, hv])]
  refine ⟨bs ++ new, ht, ?_, fun _ => by simp [hb]⟩
  simp [← hb]

/-- Nothing moves while the store is not touched. -/
theorem Accounts.of_untouched {dir : Path} {p : Prop} {s t : SpillState} (h : Untouched dir s t) :
    Accounts dir p [] s t := by
  refine fun bs hs _ => ⟨bs, hs.of_untouched h, ?_, fun _ => ?_⟩ <;>
    simp [pushedIn, reducedIn, leftIn, h.buffer]

/-- Visits of a chain account for the change of the buffer. -/
theorem Accounts.of_visits (dir : Path) (p : Prop) (s : SpillState) {vs : List Visit} {b : Buffer}
    (h : (Chain.windows vs).flatten ++ b = s.buffer ++ vs.map Visit.value) :
    Accounts dir p (vs.flatMap ofVisit) s { s with buffer := b } := by
  refine fun bs hs _ => ⟨bs, ⟨hs.directory, hs.holds, hs.named, hs.distinct⟩, ?_, fun _ => by simp [h]⟩
  simp only [pushedIn_visits, reducedIn_visits, List.append_assoc, ← h]
  exact List.perm_append_comm_assoc _ _ _

/-- A reload puts a batch back, which takes it out of its order. -/
theorem Accounts.of_reload {dir : Path} (s : SpillState) : Accounts dir False [] s (perform Spill.reload s).2 := by
  intro bs hs hj
  obtain ⟨ht, hb⟩ := Spill.stored_reload hs fun v hv => hj v (by simp [hv])
  refine ⟨bs.tail, ht, ?_, False.elim⟩
  rw [hb]
  cases bs with
  | nil => simp [pushedIn, reducedIn]
  | cons b bs =>
    simp only [pushedIn, reducedIn, List.filterMap_nil, List.flatten_cons, List.append_nil, List.flatten_nil,
      List.nil_append, List.append_assoc, List.head?_cons, Option.getD_some, List.tail_cons]
    exact List.perm_append_comm_assoc _ _ _

namespace Engine

variable {σ κ : Type} [Drain κ] (env : Environment σ κ)

/-! ### Requests -/

/-- What an engine is asked for, or what others do meanwhile. -/
inductive Request where
  /-- An event is to be handled. -/
  | event (v : Value)
  /-- The stream has ended. -/
  | finish
  /-- Spilled values are to be put back. -/
  | reload
  /-- Others change files. -/
  | others (change : FileTree → FileTree)

/-- What the engine does about a request. -/
def answer : Request → EngineAction σ κ Unit
  | .event v => process env v
  | .finish => finish env
  | .reload => do
    let _ ← reload env
  | .others change => modify fun s => { s with world.host.files := change s.world.host.files }

/-- The session after a request, whatever has failed. -/
def after (r : Request) (s : Session σ κ) : Session σ κ := (perform (answer env r) s).2

/-- The session after requests. -/
def afterAll : List Request → Session σ κ → Session σ κ
  | [], s => s
  | r :: rs, s => afterAll rs (after env r s)

/-- The movements of a flush of stages. A write that fails with a subscriber ends it. -/
def flushMoves : List (Nat × Stage) → Session σ κ → List Movement
  | [], _ => []
  | x :: rest, s =>
    ((flushed? s x).map Movement.reduced).toList ++
      match perform (flushOne env x) s with
      | (.ok _, t) => flushMoves rest t
      | (.error _, _) => []

/-- The movements that a request makes: the visits to aggregate stages, and then what has been written
to new files. -/
def moves (r : Request) (s : Session σ κ) : List Movement :=
  match r with
  | .event v =>
    (Chain.visits s.engine.settings.timestampField s.engine.stages v ⟨s.engine.buffer, s.world.clock⟩).flatMap ofVisit
      ++ (spilledSince s.store (after env r s).store).map .spilled
  | .finish => flushMoves env (Chain.aggregateStages s.engine.stages) s
  | .reload | .others _ => []

/-- The movements of all requests, in order. -/
def ledger : List Request → Session σ κ → List Movement
  | [], _ => []
  | r :: rs, s => moves env r s ++ ledger rs (after env r s)

theorem afterAll_append (rs rs' : List Request) (s : Session σ κ) :
    afterAll env (rs ++ rs') s = afterAll env rs' (afterAll env rs s) := by
  induction rs generalizing s with
  | nil => rfl
  | cons r rs ih => exact ih (after env r s)

theorem ledger_append (rs rs' : List Request) (s : Session σ κ) :
    ledger env (rs ++ rs') s = ledger env rs s ++ ledger env rs' (afterAll env rs s) := by
  induction rs generalizing s with
  | nil => rfl
  | cons r rs ih => rw [List.cons_append, ledger, ledger, afterAll, ih, List.append_assoc]

/-! ### One request -/

variable {dir : Path}

theorem accounts_event (hk : SinkSpares κ dir) (v : Value) (s : Session σ κ) :
    Accounts dir True (moves env (.event v) s) s.store (after env (.event v) s).store := by
  have hshed : Shed dir (withHeld s (chainResult s v).2).store (after env (.event v) s).store := by
    rw [after, answer, perform_process]
    exact shed_afterChain env hk v _ _
  have hvisits := Accounts.of_visits dir True s.store
    (Chain.visits_balance s.engine.settings.timestampField s.engine.stages v ⟨s.engine.buffer, s.world.clock⟩)
  exact hvisits.trans (Accounts.of_shed hshed)

omit [Drain κ] in
/-- A flush of a stage reduces the whole buffer or nothing. -/
theorem accounts_flushStage (x : Nat × Stage) (s : Session σ κ) :
    Accounts dir True ((flushed? s x).map Movement.reduced).toList s.store (perform (flushStage env x) s).2.store := by
  rw [store_flushStage]
  cases hf : flushed? s x with
  | none => exact Accounts.refl _
  | some w =>
    have hw : w = s.store.buffer := flushed?_eq hf
    refine fun bs hs _ => ⟨bs, ⟨hs.directory, hs.holds, hs.named, hs.distinct⟩, ?_, fun _ => ?_⟩
    · simpa [pushedIn, reducedIn, hw] using List.perm_append_comm
    · simp [pushedIn, leftIn, hw]

theorem accounts_flushOne (hk : SinkSpares κ dir) (x : Nat × Stage) (s : Session σ κ) :
    Accounts dir True ((flushed? s x).map Movement.reduced).toList s.store (perform (flushOne env x) s).2.store := by
  have h : Accounts dir True _ s.store _ := accounts_flushStage env x s
  rw [flushOne, perform_bind]
  rcases hp : perform (flushStage env x) s with ⟨_ | _ | v, t⟩
  all_goals rw [hp] at h
  · exact h
  · exact h
  · have hd := untouched_deliver env hk v t
    simpa using h.trans (Accounts.of_untouched hd)

theorem accounts_flushAll (hk : SinkSpares κ dir) (stages : List (Nat × Stage)) (s : Session σ κ) :
    Accounts dir True (flushMoves env stages s) s.store (perform (flushAll env stages) s).2.store := by
  induction stages generalizing s with
  | nil =>
    rw [flushAll, (leads_finishStream env s).store_eq]
    exact Accounts.refl _
  | cons x rest ih =>
    have h := accounts_flushOne env hk x s
    rw [flushAll, flushMoves, perform_bind]
    rcases hp : perform (flushOne env x) s with ⟨_ | _, t⟩
    all_goals rw [hp] at h
    · simpa using h
    · exact h.trans (ih t)

theorem accounts_reload (s : Session σ κ) : Accounts dir False [] s.store (after env .reload s).store := by
  have h : (after env .reload s).store = (perform (reload env) s).2.store := by
    rw [after, answer, perform_bind]
    rcases perform (reload env) s with ⟨_ | _, t⟩ <;> rfl
  rw [h, store_reload]
  exact Accounts.of_reload s.store

/-- **A request keeps the books**, as long as others leave the spill files alone. -/
theorem accounts_request (hk : SinkSpares κ dir) (r : Request) (s : Session σ κ)
    (ho : ∀ change, r = .others change → ∀ fs, Spares dir fs (change fs)) :
    Accounts dir (r ≠ .reload) (moves env r s) s.store (after env r s).store := by
  cases r with
  | event v => exact (accounts_event env hk v s).mono fun _ => trivial
  | finish => exact (accounts_flushAll env hk _ s).mono fun _ => trivial
  | reload => exact (accounts_reload env s).mono fun h => h rfl
  | others change => exact Accounts.of_untouched ⟨rfl, rfl, rfl, ho change rfl _⟩

/-! ### In memory -/

theorem sinkSpares_memory (dir : Path) : SinkSpares MemorySink dir :=
  fun _ => Leads.modify fun _ => refl_of (Spares dir) _

/-- A running engine with a sink in memory, before its first event. -/
def ofMemory (stages : List Stage) (capacity : Nat) : Session MemorySource MemorySink where
  engine :=
    { stages := stages
      settings := Settings.default
      log := ⟨[], [], [], [], RunLog.zeroMetrics⟩
      state := .running
      source := none
      sink := some ⟨[], .null, false⟩
      lastError := none
      queue := none
      consumer := .absent
      ended := none
      buffer := []
      spill := Spill.none ⟨"/work/", ["spilled"]⟩ }
  world := ⟨.empty capacity, ⟨.empty "/work", [], []⟩, ⟨[]⟩, 1, []⟩

/-- Nobody listens, and no connector can be made. -/
def unheard : Environment MemorySource MemorySink := ⟨.empty, fun _ _ => .silent⟩

/-- A window of three values in a buffer for one. -/
def smallWindow : Session MemorySource MemorySink :=
  ofMemory [.aggregate ⟨some 3, none⟩ (fun held => .ok (.array held)) none] 1

/-- Three events and the end of the stream. -/
def threeEvents : List Request := [.event (.int 1), .event (.int 2), .event (.int 3), .finish]

/-! ### All requests -/

theorem accounts_requests (hk : SinkSpares κ dir) (rs : List Request) (s : Session σ κ)
    (ho : ∀ change, .others change ∈ rs → ∀ fs, Spares dir fs (change fs)) :
    Accounts dir (.reload ∉ rs) (ledger env rs s) s.store (afterAll env rs s).store := by
  induction rs generalizing s with
  | nil => exact Accounts.refl _
  | cons r rs ih =>
    have hr := accounts_request env hk r s fun change h => ho change (by simp [h])
    have hrs := ih (after env r s) fun change h => ho change (List.mem_cons_of_mem _ h)
    refine (hr.mono fun h => ?_).trans (hrs.mono fun h => ?_)
    · rintro rfl
      exact h List.mem_cons_self
    · exact fun hm => h (List.mem_cons_of_mem _ hm)

/-- **No value is lost and none is doubled.** After any requests to an engine that held nothing and had
spilled nothing, every pending file can be read, and the values that aggregate stages have taken in are,
up to order, those of the reduced windows, of the pending files and of the buffer. If nothing was
reloaded, the windows and batches that left the buffer, followed by the buffer, are exactly the values
taken in, in their order. -/
theorem nothing_lost (s : Session σ κ) (hb : s.engine.buffer = []) (hp : s.engine.spill.pending = [])
    (hk : SinkSpares κ s.engine.spill.directory) (rs : List Request)
    (ho : ∀ change, .others change ∈ rs → ∀ fs, Spares s.engine.spill.directory fs (change fs))
    (hj : ∀ v ∈ pushedIn (ledger env rs s), v.isJson = true) :
    ∃ batches,
      List.Forall₂ (fun r batch => perform (Spill.readBatch r) (afterAll env rs s).world.host.files =
        (.ok batch, (afterAll env rs s).world.host.files)) (afterAll env rs s).engine.spill.pending batches ∧
      pushedIn (ledger env rs s) ~
        (reducedIn (ledger env rs s)).flatten ++ (batches.flatten ++ (afterAll env rs s).engine.buffer) ∧
      (.reload ∉ rs →
        (leftIn (ledger env rs s)).flatten ++ (afterAll env rs s).engine.buffer = pushedIn (ledger env rs s)) := by
  have h := accounts_requests env hk rs s ho [] (Spill.stored_nil (s := s.store) hp)
  have hb' : s.store.buffer = [] := hb
  simp only [hb', List.flatten_nil, List.nil_append] at h
  obtain ⟨batches, ht, hperm, hlist⟩ := h hj
  have hread := Spill.forall₂_readBatch ht.holds fun v hv =>
    hj v (hperm.mem_iff.2 (List.mem_append_right _ (List.mem_append_left _ hv)))
  exact ⟨batches, hread, hperm, hlist⟩

/-- Three events, a window of three and room for one: the batches `[1]` and `[2]` leave before the window
is full, and the end of the stream reduces `[3]`. -/
theorem nothing_lost_small_window :
    (∀ v ∈ pushedIn (ledger unheard threeEvents smallWindow), v.isJson = true) ∧
      leftIn (ledger unheard threeEvents smallWindow) = [[.int 1], [.int 2], [.int 3]] ∧
      (leftIn (ledger unheard threeEvents smallWindow)).flatten ++
          (afterAll unheard threeEvents smallWindow).engine.buffer = [.int 1, .int 2, .int 3] := by
  have hj : ∀ v ∈ pushedIn (ledger unheard threeEvents smallWindow), v.isJson = true := by decide +kernel
  have hp : pushedIn (ledger unheard threeEvents smallWindow) = [.int 1, .int 2, .int 3] := by decide +kernel
  have hlist := (nothing_lost unheard smallWindow rfl rfl (sinkSpares_memory _) threeEvents
    (by simp [threeEvents]) hj).choose_spec.2.2
  exact ⟨hj, by decide +kernel, (hlist (by simp [threeEvents])).trans hp⟩

end Engine

end EventPipeline
