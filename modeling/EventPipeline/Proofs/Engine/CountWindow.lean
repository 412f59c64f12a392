import EventPipeline.Proofs.Engine.Ledger
import EventPipeline.Proofs.Pipeline.Counting

/-!
# Count windows and the capacity of the buffer

The buffer that fills a window is the buffer that is cut back to its capacity. So a window that is closed
by the number of its values closes only if the buffer can hold all of them but the last one, and the
boundary is exact. With that room, nothing is spilled and the values are reduced window by window
(`Filling`); without it, all but the last values go to files and no window closes before the end
(`Overflowing`).

The main statement is `count_window_boundary`. Subscribers may fail at any time: whatever they do is left
out of the account (`Aside`).
-/

namespace EventPipeline

open Spill (Stored Shed Holds KeepsSequence)
open Movement (reducedIn reducedIn_append)

/-- The notice tells that values could not be written to a file. -/
def Notice.isSpillFailure : Notice → Bool
  | .engine (.error (.structured (.spillover _) ..)) => true
  | _ => false

namespace Engine

variable {σ κ : Type}

/-! ### Notices stay -/

/-- No notice is taken back. -/
def Told (s t : Session σ κ) : Prop := s.world.notices <+: t.world.notices

instance : IsPreorder (Session σ κ) Told where
  refl _ := List.prefix_rfl
  trans _ _ _ := List.IsPrefix.trans

theorem Aside.told {s t : Session σ κ} (h : Aside s t) : Told s t := by
  obtain ⟨_, _, _, _, _, _, rfl⟩ := h
  exact List.prefix_append _ _

/-- A failure that is reported has been told. -/
theorem mem_notices_report (env : Environment σ κ) (f : Failure) (s : Session σ κ) :
    .engine (.error f) ∈ (perform (report env f) s).2.world.notices := by
  rw [report, change, perform_bind_ok (perform_modify _ _), count, change, perform_bind_ok (perform_modify _ _),
    record, change, perform_bind_ok (perform_modify _ _), signal, tell, perform_bind_ok (perform_get _),
    perform_bind_ok (perform_set _ _)]
  cases (env.subscriber s.world.notices (.engine (.error f))).failure <;>
    exact List.mem_append_right _ List.mem_cons_self

section

variable [Drain κ] (env : Environment σ κ)

theorem told_onSink (v : Value) : Leads Told (onSink (Drain.write v) : EngineAction σ κ Unit) := by
  intro s
  rw [perform_onSink]
  cases s.engine.sink <;> exact List.prefix_rfl

omit [Drain κ] in
theorem told_onSpill {α : Type} (action : Spilling α) : Leads Told (onSpill action : EngineAction σ κ α) := by
  intro s
  rw [perform_onSpill]
  exact List.prefix_rfl

theorem told_process (event : Value) : Leads Told (process env event) :=
  leads_process env (fun _ _ => Aside.told) told_onSink (fun _ => told_onSpill _)
    (fun _ _ _ => List.prefix_rfl) event

end

/-! ### Cutting the buffer back -/

/-- The buffer does not exceed its capacity. -/
def Fits (s : Session σ κ) : Prop := s.engine.buffer.length ≤ s.world.definition.capacity

theorem Aside.fits {s t : Session σ κ} (h : Aside s t) (hs : Fits s) : Fits t := by
  obtain ⟨_, _, _, _, _, _, rfl⟩ := h
  exact hs

variable (env : Environment σ κ)

/-- A buffer within its capacity is left alone. -/
theorem perform_checkSpill_of_fits {s : Session σ κ} (h : Fits s) : perform (checkSpill env) s = (.ok (), s) := by
  have hnone : perform (Spill.spillIfNeeded s.world.definition.capacity) s.store = (.ok none, s.store) := by
    rcases Spill.spillIfNeeded_cases s.world.definition.capacity s.store with ⟨-, h'⟩ | ⟨h', -⟩ | ⟨h', -⟩
    · exact h'
    · exact absurd h (by simpa [Fits, Session.store] using h')
    · exact absurd h (by simpa [Fits, Session.store] using h')
  rw [checkSpill, perform_bind_ok (perform_get s)]
  dsimp only
  rw [attempt, perform_bind_ok (perform_lift _ s), perform_onSpill, hnone]
  rfl

/-- A step that leads within the capacity is not followed by a spill. -/
theorem perform_then_checkSpill {a : EngineAction σ κ Unit} {s : Session σ κ} (h : Fits (perform a s).2) :
    (perform (a >>= fun _ => checkSpill env) s).2 = (perform a s).2 := by
  rw [perform_bind]
  rcases hp : perform a s with ⟨_ | _, t⟩
  · rfl
  · rw [hp] at h
    exact congrArg Prod.snd (perform_checkSpill_of_fits env h)

/-- **A buffer above its capacity is cut back to it**, unless a failure to spill is told. -/
theorem buffer_checkSpill {s : Session σ κ} (h : s.world.definition.capacity < s.engine.buffer.length) :
    (∃ n ∈ (perform (checkSpill env) s).2.world.notices, n.isSpillFailure = true) ∨
      (perform (checkSpill env) s).2.engine.buffer =
        s.engine.buffer.drop (s.engine.buffer.length - s.world.definition.capacity) := by
  rw [checkSpill, perform_bind_ok (perform_get s)]
  dsimp only
  rw [attempt, perform_bind_ok (perform_lift _ s), perform_onSpill]
  rcases Spill.spillIfNeeded_cases s.world.definition.capacity s.store with ⟨h', -⟩ | ⟨-, f, _, -, h'⟩ | ⟨-, files, -, h'⟩
  · exact absurd h (by simpa [Session.store] using h')
  · rw [h']
    exact .inl ⟨_, mem_notices_report env _ _, rfl⟩
  · right
    rw [h']
    have hcut : (s.engine.buffer.length - s.world.definition.capacity : ℤ).toNat =
        s.engine.buffer.length - s.world.definition.capacity := by
      omega
    rw [← hcut]
    refine congrArg SpillState.buffer
      (Aside.store_eq (s := withStore s (Spill.afterSpill s.world.definition.capacity s.store files)) ?_)
    exact Leads.bind (leads_count _ _) (fun _ => Leads.bind (leads_count _ _) fun _ =>
      Leads.bind (leads_record _ _ _ _) fun _ => leads_signal env _) _

/-! ### After the chain has run -/

/-- An event that comes to nothing leaves a buffer within its capacity as it is. -/
theorem aside_afterChain [Drain κ] (event : Value) {o : Outcome} (hd : o.delivered? = none) (he : o.errors = [])
    {s : Session σ κ} (hs : Fits s) : Aside s (perform (afterChain env event o) s).2 := by
  rw [afterChain, he, hd]
  dsimp only
  split_ifs
  · have hp : Leads Aside (do count .filtered 1; signal env (.filtered event) : EngineAction σ κ Unit) :=
      Leads.bind (leads_count _ _) fun _ => leads_signal env _
    have h := perform_then_checkSpill env ((hp s).fits hs)
    rw [bind_assoc] at h
    exact h ▸ hp s
  · exact (congrArg Prod.snd (perform_checkSpill_of_fits env hs)).symm ▸ refl_of Aside s

/-- What leaves a session as it was, except for the buffer, the clock, the sink and what the sink writes. -/
structure Sent [Drain κ] (written : List Value) (s t : Session σ (Recorded κ)) : Prop where
  /-- The stages are the same. -/
  stages : t.engine.stages = s.engine.stages
  /-- The definition is the same. -/
  definition : t.world.definition = s.world.definition
  /-- Nothing has been spilled. -/
  spill : t.engine.spill = s.engine.spill
  /-- No name has been given to a file. -/
  nextName : t.world.nextName = s.world.nextName
  /-- There is a sink still. -/
  sink : t.engine.sink.isSome = s.engine.sink.isSome
  /-- The sink has been given the values. -/
  calls : sinkCalls t = sinkCalls s ++ written.map .write
  /-- The sink alone has changed files: whatever its writes keep of them is kept. -/
  files : ∀ (R : FileTree → FileTree → Prop) [IsPreorder FileTree R],
    (∀ v, Leads (fun a b => R a.2.files b.2.files) (Drain.write v : SinkAction κ Unit)) →
      R s.world.host.files t.world.host.files

namespace Sent

variable [Drain κ] {s t u : Session σ (Recorded κ)} {vs ws : List Value}

theorem refl (s : Session σ (Recorded κ)) : Sent [] s s :=
  ⟨rfl, rfl, rfl, rfl, rfl, (List.append_nil _).symm, fun R _ _ => refl_of R _⟩

theorem trans (h : Sent vs s t) (h' : Sent ws t u) : Sent (vs ++ ws) s u where
  stages := h'.stages.trans h.stages
  definition := h'.definition.trans h.definition
  spill := h'.spill.trans h.spill
  nextName := h'.nextName.trans h.nextName
  sink := h'.sink.trans h.sink
  calls := by rw [h'.calls, h.calls, List.map_append, List.append_assoc]
  files R _ hR := trans_of R (h.files R hR) (h'.files R hR)

theorem of_aside (h : Aside s t) : Sent [] s t := by
  obtain ⟨_, _, _, _, _, _, rfl⟩ := h
  exact ⟨rfl, rfl, rfl, rfl, rfl, (List.append_nil _).symm, fun R _ _ => refl_of R _⟩

theorem of_held (s : Session σ (Recorded κ)) (a : Accumulator) : Sent [] s (withHeld s a) :=
  ⟨rfl, rfl, rfl, rfl, rfl, (List.append_nil _).symm, fun R _ _ => refl_of R _⟩

end Sent

/-- The sink takes every value. -/
def NeverFails (κ : Type) [Drain κ] : Prop :=
  ∀ (v : Value) (k : κ) (host : Host), (perform (Drain.write v : SinkAction κ Unit) (k, host)).1 = .ok ()

section

variable [Drain κ] (env : Environment σ (Recorded κ)) (hk : NeverFails κ)

include hk

/-- **A write to a sink that never fails** gives it the value, also when a subscriber fails on that. -/
theorem sent_deliver {s : Session σ (Recorded κ)} (hs : s.engine.sink.isSome) (v : Value) :
    Sent [v] s (perform (deliver env v) s).2 ∧
      (perform (deliver env v) s).2.engine.buffer = s.engine.buffer := by
  obtain ⟨r, hr⟩ := Option.isSome_iff_exists.1 hs
  have hpass : perform (Drain.write v : SinkAction (Recorded κ) Unit) (r, s.world.host) = _ :=
    Recorded.perform_passing (.write v) (Drain.write v) r s.world.host
  have hwrite : perform (onSink (Drain.write v) : EngineAction σ (Recorded κ) Unit) s =
      (.ok (), withSink s ⟨(perform (Drain.write v) (r.sink, s.world.host)).2.1, r.calls ++ [.write v]⟩
        (perform (Drain.write v) (r.sink, s.world.host)).2.2) := by
    rw [perform_onSink, hr]
    simp only [hpass, hk v r.sink s.world.host]
  have hlog : Leads Aside (do count .processed 1; signal env (.processed v) : EngineAction σ (Recorded κ) Unit) :=
    Leads.bind (leads_count _ _) fun _ => leads_signal env _
  rw [deliver, attempt, perform_bind_ok (perform_lift _ s), hwrite]
  generalize hw : withSink s _ _ = t
  have hst : Sent [v] s t := by
    subst hw
    refine ⟨rfl, rfl, rfl, rfl, by rw [hr]; rfl, by rw [sinkCalls, sinkCalls, hr]; rfl, fun R _ hR => ?_⟩
    exact hR v (r.sink, s.world.host)
  have hbuffer : (perform _ t).2.engine.buffer = t.engine.buffer := congrArg SpillState.buffer (hlog t).store_eq
  exact ⟨hst.trans (.of_aside (hlog t)), hbuffer.trans (by rw [← hw]; rfl)⟩

end

/-! ### One event -/

section

variable [Drain κ] {C : CountingChain}

/-- What an event does can be read off the run of the chain that keeps the visits. -/
theorem after_event (env : Environment σ κ) {s : Session σ κ} {event : Value} {o : Outcome} {a : Accumulator}
    {vs : List Visit}
    (h : (Chain.watch s.engine.settings.timestampField s.engine.stages event).run
      (⟨s.engine.buffer, s.world.clock⟩, []) = (o, a, vs)) :
    after env (.event event) s = (perform (afterChain env event o) (withHeld s a)).2 ∧
      reducedIn (moves env (.event event) s) = Chain.windows vs := by
  have hrun : chainResult s event = (o, a) := by
    rw [chainResult, Chain.watch_erase _ _ _ _ [], h]
    rfl
  constructor
  · rw [after, answer, perform_process, hrun]
  · rw [moves, reducedIn_append, Movement.reducedIn_visits, Movement.reducedIn_spilled, List.append_nil,
      Chain.visits, h]

/-- An event that is lost changes nothing. -/
theorem event_lost (env : Environment σ κ) {s : Session σ κ} (hs : s.engine.stages = C.stages) (hfits : Fits s)
    {event : Value} (h : Chain.thread C.before event = .ok none) :
    Aside s (after env (.event event) s) ∧ reducedIn (moves env (.event event) s) = [] := by
  obtain ⟨o, hd, he, hrun⟩ := CountingChain.watch_lost s.engine.settings.timestampField
    (a := ⟨s.engine.buffer, s.world.clock⟩) h
  rw [← hs] at hrun
  obtain ⟨hafter, hmoves⟩ := after_event env hrun
  rw [hafter, hmoves]
  exact ⟨aside_afterChain env event hd he hfits, rfl⟩

/-- A value that is held joins the others, and the buffer is cut back. -/
theorem event_held (env : Environment σ κ) {s : Session σ κ} (hs : s.engine.stages = C.stages)
    {event x : Value} (h : Chain.thread C.before event = .ok (some x)) (hl : s.engine.buffer.length + 1 < C.size) :
    after env (.event event) s =
        (perform (checkSpill env) (withHeld s ⟨s.engine.buffer ++ [x], s.world.clock⟩)).2 ∧
      reducedIn (moves env (.event event) s) = [] := by
  have hrun := CountingChain.watch_held s.engine.settings.timestampField
    (a := ⟨s.engine.buffer, s.world.clock⟩) h hl
  rw [← hs] at hrun
  exact after_event env hrun

/-- A value that closes the window empties the buffer, and the sink is given what comes of the reduction. -/
theorem event_closed (env : Environment σ (Recorded κ)) (hk : NeverFails κ) {s : Session σ (Recorded κ)}
    (hs : s.engine.stages = C.stages) (hsink : s.engine.sink.isSome) {event x r : Value} {y : Option Value}
    (h : Chain.thread C.before event = .ok (some x)) (hl : C.size ≤ s.engine.buffer.length + 1)
    (hr : C.reduce (s.engine.buffer ++ [x]) = .ok r) (hy : Chain.thread C.after r = .ok y) :
    Sent y.toList s (after env (.event event) s) ∧ (after env (.event event) s).engine.buffer = [] ∧
      reducedIn (moves env (.event event) s) = [s.engine.buffer ++ [x]] := by
  obtain ⟨o, hd, he, hrun⟩ := CountingChain.watch_closed s.engine.settings.timestampField
    (a := ⟨s.engine.buffer, s.world.clock⟩) h hl hr hy
  rw [← hs] at hrun
  obtain ⟨hafter, hmoves⟩ := after_event env hrun
  rw [hafter, hmoves]
  have hheld := Sent.of_held s ⟨[], s.world.clock⟩
  cases y with
  | none =>
    have ha := aside_afterChain env event hd he (s := withHeld s ⟨[], s.world.clock⟩) (Nat.zero_le _)
    exact ⟨hheld.trans (.of_aside ha), congrArg SpillState.buffer ha.store_eq, rfl⟩
  | some v =>
    obtain ⟨hsent, hbuffer⟩ := sent_deliver env hk (s := withHeld s ⟨[], s.world.clock⟩) hsink v
    have hempty : (perform (deliver env v) (withHeld s ⟨[], s.world.clock⟩)).2.engine.buffer = [] := hbuffer
    have hfits : Fits (perform (deliver env v) (withHeld s ⟨[], s.world.clock⟩)).2 := by
      rw [Fits, hempty]
      exact Nat.zero_le _
    have hafter : (perform (afterChain env event o) (withHeld s ⟨[], s.world.clock⟩)).2 =
        (perform (deliver env v) (withHeld s ⟨[], s.world.clock⟩)).2 := by
      rw [← perform_then_checkSpill env hfits, afterChain, he, hd]
      rfl
    rw [hafter]
    exact ⟨hheld.trans hsent, hempty, rfl⟩

end

/-! ### Room for all values but the last one -/

section

variable [Drain κ] {C : CountingChain} {s₀ s : Session σ (Recorded κ)} {xs : List Value} {g : List Value → Value}
  {q : Value → Option Value}

/-- Windows are filled and reduced one after the other, and the values behind the last one are held. -/
structure Filling (C : CountingChain) (g : List Value → Value) (q : Value → Option Value)
    (s₀ : Session σ (Recorded κ)) (xs : List Value) (s : Session σ (Recorded κ)) : Prop where
  /-- The sink has been given what comes of the reductions. -/
  sent : Sent (((fullWindows C.size xs).map g).filterMap q) s₀ s
  /-- The values behind the last full window are held. -/
  buffer : s.engine.buffer = xs.rtake (xs.length % C.size)

theorem Filling.length (h : Filling C g q s₀ xs s) : s.engine.buffer.length = xs.length % C.size := by
  rw [h.buffer]
  exact length_rtake (Nat.mod_le _ _)

theorem Filling.fits (h : Filling C g q s₀ xs s) (hroom : C.size ≤ s₀.world.definition.capacity + 1) : Fits s := by
  have hlt := Nat.mod_lt xs.length C.size_pos
  rw [Fits, h.length, h.sent.definition]
  omega

/-- **An event keeps the windows filling.** -/
theorem Filling.event (env : Environment σ (Recorded κ)) (hk : NeverFails κ) (h : Filling C g q s₀ xs s)
    (hs : s₀.engine.stages = C.stages) (hsink : s₀.engine.sink.isSome)
    (hroom : C.size ≤ s₀.world.definition.capacity + 1) {event : Value} {r : Option Value}
    (hr : Chain.thread C.before event = .ok r)
    (hg : ∀ w ∈ fullWindows C.size (xs ++ r.toList), C.reduce w = .ok (g w))
    (hq : ∀ w ∈ fullWindows C.size (xs ++ r.toList), Chain.thread C.after (g w) = .ok (q (g w))) :
    Filling C g q s₀ (xs ++ r.toList) (after env (.event event) s) ∧
      fullWindows C.size (xs ++ r.toList) =
        fullWindows C.size xs ++ reducedIn (moves env (.event event) s) := by
  have hstages := h.sent.stages.trans hs
  cases r with
  | none =>
    obtain ⟨ha, hm⟩ := event_lost env hstages (h.fits hroom) hr
    rw [Option.toList_none, List.append_nil, hm, List.append_nil]
    refine ⟨⟨?_, (congrArg SpillState.buffer ha.store_eq).trans h.buffer⟩, rfl⟩
    simpa using h.sent.trans (.of_aside ha)
  | some x =>
    rw [Option.toList_some] at hg hq ⊢
    have hfull := fullWindows_concat C.size_pos xs x
    have hlength : (xs ++ [x]).length = xs.length + 1 := by simp
    by_cases hlast : xs.length % C.size + 1 = C.size
    · -- the value is the last one of its window
      rw [if_pos hlast, ← h.buffer] at hfull
      have hmem : s.engine.buffer ++ [x] ∈ fullWindows C.size (xs ++ [x]) := by
        rw [hfull]
        exact List.mem_append_right _ List.mem_cons_self
      obtain ⟨hsent, hbuffer, hm⟩ := event_closed env hk hstages (h.sent.sink.trans hsink) hr
        (by rw [h.length, hlast]) (hg _ hmem) (hq _ hmem)
      refine ⟨⟨?_, ?_⟩, by rw [hfull, hm]⟩
      · have hnew : [g (s.engine.buffer ++ [x])].filterMap q = (q (g (s.engine.buffer ++ [x]))).toList := by
          cases h : q (g (s.engine.buffer ++ [x])) <;> simp [h]
        rw [hfull, List.map_append, List.filterMap_append, List.map_singleton, hnew]
        exact h.sent.trans hsent
      · rw [hbuffer, hlength, succ_mod C.size_pos, if_pos hlast, List.rtake_zero]
    · -- the value is held, and there is room for it
      have hlt := Nat.mod_lt xs.length C.size_pos
      rw [if_neg hlast, List.append_nil] at hfull
      obtain ⟨hafter, hm⟩ := event_held env hstages hr (by rw [h.length]; omega)
      have hfits : Fits (withHeld s ⟨s.engine.buffer ++ [x], s.world.clock⟩) := by
        show (s.engine.buffer ++ [x]).length ≤ s.world.definition.capacity
        rw [List.length_append, h.length, h.sent.definition, List.length_singleton]
        omega
      rw [hafter, perform_checkSpill_of_fits env hfits, hm, hfull, List.append_nil]
      refine ⟨⟨?_, ?_⟩, rfl⟩
      · rw [hfull]
        simpa using h.sent.trans (.of_held s ⟨s.engine.buffer ++ [x], s.world.clock⟩)
      · show s.engine.buffer ++ [x] = _
        rw [hlength, succ_mod C.size_pos, if_neg hlast, List.rtake_concat_succ, h.buffer]

end

/-! ### No room to fill a window -/

section

variable {C : CountingChain} {xs : List Value}

/-- Only the store has changed. -/
def StoreOnly (s t : Session σ κ) : Prop := t.core = { s.core with store := t.store }

instance : IsPreorder (Session σ κ) StoreOnly where
  refl _ := rfl
  trans s t u h h' := by
    unfold StoreOnly at h h' ⊢
    rw [h', h]

/-- The last values are held, as many as there is room for, and the others are in files. -/
structure Overflowing (s₀ : Session σ κ) (xs : List Value) (s : Session σ κ) : Prop where
  /-- The stages are the same. -/
  stages : s.engine.stages = s₀.engine.stages
  /-- The definition is the same. -/
  definition : s.world.definition = s₀.world.definition
  /-- The sink is the same. -/
  sink : s.engine.sink = s₀.engine.sink
  /-- As many values are held as there is room for. -/
  length : s.engine.buffer.length = min s₀.world.definition.capacity xs.length
  /-- The records are in order. -/
  inSequence : s.engine.spill.InSequence
  /-- Files and buffer hold the values, in order. -/
  stored : ∃ bs, Stored s₀.engine.spill.directory s.store bs ∧ bs.flatten ++ s.engine.buffer = xs

theorem Overflowing.of_aside {s₀ s t : Session σ κ} (h : Overflowing s₀ xs s) (ha : Aside s t) :
    Overflowing s₀ xs t := by
  obtain ⟨_, _, _, _, _, _, rfl⟩ := ha
  exact ⟨h.stages, h.definition, h.sink, h.length, h.inSequence, h.stored⟩

theorem Overflowing.fits {s₀ s : Session σ κ} (h : Overflowing s₀ xs s) : Fits s := by
  rw [Fits, h.length, h.definition]
  exact Nat.min_le_left _ _

theorem storeOnly_checkSpill (env : Environment σ κ) : Leads StoreOnly (checkSpill env) := by
  refine leads_checkSpill env (fun s t h => ?_) fun capacity s => ?_
  · rw [StoreOnly, h.core_eq, h.store_eq]
    rfl
  · rw [perform_onSpill]
    rfl

theorem shed_checkSpill (env : Environment σ κ) (dir : Path) :
    Leads (Order.Preimage Session.store (Shed dir)) (checkSpill env) :=
  leads_checkSpill env (fun _ _ h => h.untouched.shed) fun _ => leads_onSpill (Spill.leads_spillIfNeeded dir _)

theorem keepsSequence_checkSpill (env : Environment σ κ) :
    Leads (Order.Preimage Session.store KeepsSequence) (checkSpill env) := by
  refine leads_checkSpill env (fun _ _ h => ?_) fun _ => leads_onSpill (Spill.keepsSequence_spillIfNeeded _)
  rw [Order.Preimage, h.store_eq]
  exact refl_of KeepsSequence _

/-- **A value that is held pushes the oldest one out** when there is no more room. -/
theorem Overflowing.push (env : Environment σ κ) {s₀ s : Session σ κ} (h : Overflowing s₀ xs s) (x : Value)
    (clock : Clock)
    (hn : ∀ n ∈ (perform (checkSpill env) (withHeld s ⟨s.engine.buffer ++ [x], clock⟩)).2.world.notices,
      n.isSpillFailure = false) :
    Overflowing s₀ (xs ++ [x]) (perform (checkSpill env) (withHeld s ⟨s.engine.buffer ++ [x], clock⟩)).2 := by
  have hcore := storeOnly_checkSpill env (withHeld s ⟨s.engine.buffer ++ [x], clock⟩)
  have hdefinition : s.world.definition.capacity = s₀.world.definition.capacity :=
    congrArg Definition.capacity h.definition
  have hlen : (s.engine.buffer ++ [x]).length = min s₀.world.definition.capacity xs.length + 1 := by
    rw [List.length_append, h.length, List.length_singleton]
  refine ⟨(congrArg Core.stages hcore).trans h.stages, (congrArg Core.definition hcore).trans h.definition,
    (congrArg Core.sink hcore).trans h.sink, ?_, keepsSequence_checkSpill env _ h.inSequence, ?_⟩
  · rw [List.length_append, List.length_singleton]
    by_cases hfits : Fits (withHeld s ⟨s.engine.buffer ++ [x], clock⟩)
    · rw [perform_checkSpill_of_fits env hfits]
      have hle : (s.engine.buffer ++ [x]).length ≤ s.world.definition.capacity := hfits
      refine hlen.trans ?_
      omega
    · have hlt : s.world.definition.capacity < (s.engine.buffer ++ [x]).length := Nat.lt_of_not_le hfits
      rcases buffer_checkSpill env (s := withHeld s ⟨s.engine.buffer ++ [x], clock⟩) hlt with ⟨n, hm, hf⟩ | hb
      · rw [hn n hm] at hf
        cases hf
      · rw [hb, List.length_drop]
        show (s.engine.buffer ++ [x]).length - ((s.engine.buffer ++ [x]).length - s.world.definition.capacity) = _
        omega
  · obtain ⟨bs, hbs, hxs⟩ := h.stored
    obtain ⟨new, hnew, hb⟩ := shed_checkSpill env s₀.engine.spill.directory
      (withHeld s ⟨s.engine.buffer ++ [x], clock⟩) bs ⟨hbs.directory, hbs.holds, hbs.named, hbs.distinct⟩
    refine ⟨bs ++ new, hnew, ?_⟩
    have hb' : new.flatten ++ _ = s.engine.buffer ++ [x] := hb
    rw [List.flatten_append, List.append_assoc]
    exact (congrArg (bs.flatten ++ ·) hb').trans (by rw [← List.append_assoc, hxs])

/-- **An event keeps the buffer overflowing**, and no window closes. -/
theorem Overflowing.event [Drain κ] (env : Environment σ κ) {s₀ s : Session σ κ} (h : Overflowing s₀ xs s)
    (hs : s₀.engine.stages = C.stages) (htight : s₀.world.definition.capacity + 1 < C.size) {event : Value}
    {r : Option Value} (hr : Chain.thread C.before event = .ok r)
    (hn : ∀ n ∈ (after env (.event event) s).world.notices, n.isSpillFailure = false) :
    Overflowing s₀ (xs ++ r.toList) (after env (.event event) s) ∧ reducedIn (moves env (.event event) s) = [] := by
  have hstages := h.stages.trans hs
  cases r with
  | none =>
    obtain ⟨ha, hm⟩ := event_lost env hstages h.fits hr
    rw [Option.toList_none, List.append_nil]
    exact ⟨h.of_aside ha, hm⟩
  | some x =>
    have hl : s.engine.buffer.length + 1 < C.size := by
      rw [h.length]
      omega
    obtain ⟨hafter, hm⟩ := event_held env hstages hr hl
    rw [hafter] at hn ⊢
    exact ⟨h.push env x _ hn, hm⟩

end

/-! ### The end of the stream -/

/-- The flush of one stage makes one movement at most. -/
theorem flushMoves_singleton [Drain κ] (env : Environment σ κ) (x : Nat × Stage) (s : Session σ κ) :
    flushMoves env [x] s = ((flushed? s x).map Movement.reduced).toList := by
  rw [flushMoves]
  rcases perform (flushOne env x) s with ⟨_ | _, t⟩
  · exact List.append_nil _
  · exact List.append_nil _

section

variable [Drain κ] {C : CountingChain} (env : Environment σ (Recorded κ)) {s : Session σ (Recorded κ)}
  {g : List Value → Value} (hr : ∀ w ∈ lastWindow s.engine.buffer, C.reduce w = .ok (g w))

include hr

/-- A flush of the aggregate stage gives the reduction of all that is held, if anything is. -/
theorem perform_flushStage : ∃ t,
    perform (flushStage env (C.before.length, C.stage)) s =
      (.ok (((lastWindow s.engine.buffer).map g).filterMap Value.present?).head?, t) ∧
    Sent [] s t ∧ t.engine.buffer = [] := by
  rw [flushStage, perform_bind_ok (perform_get s)]
  by_cases hb : s.engine.buffer = []
  · refine ⟨s, ?_, .refl s, hb⟩
    simp [CountingChain.stage, hb, lastWindow]
  · have hl : s.engine.buffer.length ≠ 0 := by simpa using hb
    have hlast : lastWindow s.engine.buffer = [s.engine.buffer] := by
      cases h : s.engine.buffer with
      | nil => exact absurd h hb
      | cons => rfl
    have hreduce := hr s.engine.buffer (by rw [hlast]; exact List.mem_cons_self)
    have hflush : (Accumulator.flush C.reduce).run.run ⟨s.engine.buffer, s.world.clock⟩ =
        (.ok (some (g s.engine.buffer)), ⟨[], s.world.clock⟩) := by
      have h := Accumulator.perform_flush C.reduce ⟨s.engine.buffer, s.world.clock⟩
      rw [if_neg hb, hreduce] at h
      exact h
    simp only [CountingChain.stage, hl, if_false, hlast, List.map_singleton]
    rw [perform_bind_ok (perform_onAccumulator _ s), hflush]
    obtain ⟨t, hrecord, ha⟩ := perform_record
      ("stage." ++ Text.ofNat C.before.length ++ "." ++ C.stage.kind.name) "info" "end-of-stream flush"
      [("events", .nat s.engine.buffer.length)] (withHeld s ⟨[], s.world.clock⟩)
    refine ⟨t, ?_, (Sent.of_held s _).trans (.of_aside ha), congrArg SpillState.buffer ha.store_eq⟩
    dsimp only
    refine (perform_bind_ok hrecord).trans ?_
    cases g s.engine.buffer <;> rfl

/-- Flushing the aggregate stage writes the reduction of all that is held, if anything is. -/
theorem sent_flushOne (hk : NeverFails κ) (hsink : s.engine.sink.isSome) :
    Sent (((lastWindow s.engine.buffer).map g).filterMap Value.present?) s
      (perform (flushOne env (C.before.length, C.stage)) s).2 := by
  obtain ⟨t, ht, hsent, -⟩ := perform_flushStage env hr
  rw [flushOne, perform_bind_ok ht]
  have hshort : (((lastWindow s.engine.buffer).map g).filterMap Value.present?).length ≤ 1 := by
    refine (List.length_filterMap_le _ _).trans ?_
    cases s.engine.buffer <;> simp [lastWindow]
  generalize ((lastWindow s.engine.buffer).map g).filterMap Value.present? = written at hshort
  rcases written with _ | ⟨v, _ | _⟩
  · exact hsent
  · exact hsent.trans (sent_deliver env hk (hsent.sink.trans hsink) v).1
  · simp at hshort

/-- **The end of the stream reduces all that is held**, and the sink is given the reduction as it is. -/
theorem sent_finish (hk : NeverFails κ) (hs : s.engine.stages = C.stages) (hsink : s.engine.sink.isSome) :
    Sent (((lastWindow s.engine.buffer).map g).filterMap Value.present?) s (after env .finish s) ∧
      reducedIn (moves env .finish s) = lastWindow s.engine.buffer := by
  have hone := sent_flushOne env hr hk hsink
  have hflush : after env .finish s =
      (perform (flushOne env (C.before.length, C.stage) >>= fun _ => finishStream env) s).2 := by
    rw [after, answer, finish, perform_bind_ok (perform_get s)]
    dsimp only
    rw [hs, C.aggregateStages_stages]
    rfl
  constructor
  · rw [hflush, perform_bind]
    rcases hp : perform (flushOne env (C.before.length, C.stage)) s with ⟨_ | _, t⟩
    all_goals rw [hp] at hone
    · exact hone
    · simpa using hone.trans (.of_aside (leads_finishStream env t))
  · rw [moves, hs, C.aggregateStages_stages, flushMoves_singleton, CountingChain.stage, flushed?]
    cases hb : s.engine.buffer with
    | nil => rfl
    | cons v rest =>
      have hreduce := hr s.engine.buffer (by rw [hb]; exact List.mem_cons_self)
      rw [hb] at hreduce
      rw [if_neg (by simp), hreduce]
      rfl

end

/-! ### All events -/

section

variable [Drain κ] {C : CountingChain} {events xs : List Value} {f q : Value → Option Value}
  {g : List Value → Value}

/-- The session after events. -/
def feed (env : Environment σ κ) (events : List Value) (s : Session σ κ) : Session σ κ :=
  afterAll env (events.map .event) s

theorem feed_concat (env : Environment σ κ) (events : List Value) (event : Value) (s : Session σ κ) :
    feed env (events ++ [event]) s = after env (.event event) (feed env events s) := by
  rw [feed, List.map_append, afterAll_append]
  rfl

theorem ledger_concat (env : Environment σ κ) (events : List Value) (event : Value) (s : Session σ κ) :
    ledger env ((events ++ [event]).map .event) s =
      ledger env (events.map .event) s ++ moves env (.event event) (feed env events s) := by
  rw [List.map_append, ledger_append]
  exact congrArg (ledger env (events.map .event) s ++ ·) (List.append_nil _)

theorem filterMap_concat (events : List Value) (event : Value) :
    (events ++ [event]).filterMap f = events.filterMap f ++ (f event).toList := by
  rw [List.filterMap_append]
  cases h : f event <;> simp [h]

/-- **With room for all values but the last one, the windows are the full ones.** -/
theorem filling_feed (env : Environment σ (Recorded κ)) (hk : NeverFails κ) {s : Session σ (Recorded κ)}
    (hs : s.engine.stages = C.stages) (hb : s.engine.buffer = []) (hsink : s.engine.sink.isSome)
    (hroom : C.size ≤ s.world.definition.capacity + 1)
    (hf : ∀ e ∈ events, Chain.thread C.before e = .ok (f e))
    (hg : ∀ w ∈ fullWindows C.size (events.filterMap f), C.reduce w = .ok (g w))
    (hq : ∀ w ∈ fullWindows C.size (events.filterMap f), Chain.thread C.after (g w) = .ok (q (g w))) :
    Filling C g q s (events.filterMap f) (feed env events s) ∧
      reducedIn (ledger env (events.map .event) s) = fullWindows C.size (events.filterMap f) := by
  induction events using List.reverseRecOn with
  | nil =>
    have hnone : fullWindows C.size ([] : List Value) = [] := by simp [fullWindows]
    refine ⟨⟨?_, ?_⟩, ?_⟩
    · rw [List.filterMap_nil, hnone]
      exact .refl s
    · rw [List.filterMap_nil, List.rtake_nil]
      exact hb
    · rw [List.filterMap_nil, hnone]
      rfl
  | append_singleton events event ih =>
    rw [filterMap_concat] at hg hq ⊢
    have hsub : ∀ w ∈ fullWindows C.size (events.filterMap f),
        w ∈ fullWindows C.size (events.filterMap f ++ (f event).toList) := by
      intro w hw
      cases f event with
      | none => simpa using hw
      | some x =>
        rw [Option.toList_some, fullWindows_concat C.size_pos]
        exact List.mem_append_left _ hw
    obtain ⟨hfill, hledger⟩ := ih (fun e he => hf e (List.mem_append_left _ he)) (fun w hw => hg w (hsub w hw))
      fun w hw => hq w (hsub w hw)
    obtain ⟨hnext, hwindows⟩ := hfill.event env hk hs hsink hroom
      (hf event (List.mem_append_right _ List.mem_cons_self)) hg hq
    rw [feed_concat, ledger_concat, reducedIn_append, hledger, ← hwindows]
    exact ⟨hnext, rfl⟩

/-- **Without that room, no window closes**, and all but the last values go to files. -/
theorem overflowing_feed (env : Environment σ κ) {s : Session σ κ} (hs : s.engine.stages = C.stages)
    (hb : s.engine.buffer = []) (hp : s.engine.spill.pending = [])
    (htight : s.world.definition.capacity + 1 < C.size)
    (hf : ∀ e ∈ events, Chain.thread C.before e = .ok (f e))
    (hn : ∀ n ∈ (feed env events s).world.notices, n.isSpillFailure = false) :
    Overflowing s (events.filterMap f) (feed env events s) ∧ reducedIn (ledger env (events.map .event) s) = [] := by
  induction events using List.reverseRecOn with
  | nil =>
    refine ⟨⟨rfl, rfl, rfl, ?_, ?_, [], Spill.stored_nil (s := s.store) hp, hb⟩, rfl⟩
    · rw [List.filterMap_nil, List.length_nil, Nat.min_zero]
      exact congrArg List.length hb
    · constructor <;> simp [feed, afterAll, hp]
  | append_singleton events event ih =>
    rw [feed_concat] at hn ⊢
    have htold : Told (feed env events s) (after env (.event event) (feed env events s)) :=
      told_process env event _
    obtain ⟨hover, hledger⟩ := ih (fun e he => hf e (List.mem_append_left _ he)) fun n hm => hn n (htold.subset hm)
    obtain ⟨hnext, hmoves⟩ := hover.event env hs htight (hf event (List.mem_append_right _ List.mem_cons_self)) hn
    rw [filterMap_concat, ledger_concat, reducedIn_append, hledger, hmoves]
    exact ⟨hnext, rfl⟩

/-- **The boundary of count windows.** Events and the end of the stream go to an engine that holds nothing.
Of the events, the stages in front of the aggregate stage make the values `xs`.

If the buffer has room for all values of a window but the last one, nothing is spilled: the files are changed
by the sink alone, the reducer gets the full windows and in the end what is left, and the sink gets what the
stages behind make of the reductions, and then the last reduction as it is.

If it has not, no window closes before the end. Then the pending files hold, in the order of their numbers,
all values but the last ones, and the end of the stream reduces these. -/
theorem count_window_boundary {env : Environment σ (Recorded κ)} {s : Session σ (Recorded κ)} {c : ℕ}
    (hs : s.engine.stages = C.stages) (hc : s.world.definition.capacity = c) (hb : s.engine.buffer = [])
    (hp : s.engine.spill.pending = []) (hsink : s.engine.sink.isSome) (hk : NeverFails κ)
    (hf : ∀ e ∈ events, Chain.thread C.before e = .ok (f e)) (hxs : events.filterMap f = xs)
    (hg : ∀ w ∈ C.closed c xs ++ lastWindow (xs.rtake (C.held c xs)), C.reduce w = .ok (g w))
    (hq : ∀ w ∈ C.closed c xs, Chain.thread C.after (g w) = .ok (q (g w)))
    (hn : ∀ n ∈ (feed env events s).world.notices, n.isSpillFailure = false) :
    (C.size ≤ c + 1 →
      Sent (((fullWindows C.size xs).map g).filterMap q ++
          ((lastWindow (xs.rtake (xs.length % C.size))).map g).filterMap Value.present?)
        s (after env .finish (feed env events s)) ∧
      reducedIn (ledger env (events.map .event) s) = fullWindows C.size xs ∧
      reducedIn (moves env .finish (feed env events s)) = lastWindow (xs.rtake (xs.length % C.size))) ∧
    (c + 1 < C.size →
      reducedIn (ledger env (events.map .event) s) = [] ∧
      (feed env events s).engine.spill.pending.Pairwise (·.sequence < ·.sequence) ∧
      (∃ batches, List.Forall₂ (Holds (feed env events s).world.host.files)
          (feed env events s).engine.spill.pending batches ∧
        batches.flatten = xs.rdrop (min c xs.length)) ∧
      reducedIn (moves env .finish (feed env events s)) = lastWindow (xs.rtake (min c xs.length))) := by
  subst hc hxs
  constructor
  · intro hroom
    rw [CountingChain.closed, CountingChain.held, if_pos hroom, if_pos hroom] at hg
    rw [CountingChain.closed, if_pos hroom] at hq
    obtain ⟨hfill, hledger⟩ := filling_feed env hk hs hb hsink hroom hf
      (fun w hw => hg w (List.mem_append_left _ hw)) hq
    rw [← hfill.buffer] at hg ⊢
    obtain ⟨hsent, hmoves⟩ := sent_finish env (fun w hw => hg w (List.mem_append_right _ hw)) hk
      (hfill.sent.stages.trans hs) (hfill.sent.sink.trans hsink)
    exact ⟨hfill.sent.trans hsent, hledger, hmoves⟩
  · intro htight
    rw [CountingChain.closed, CountingChain.held, if_neg (by omega), if_neg (by omega), List.nil_append] at hg
    obtain ⟨hover, hledger⟩ := overflowing_feed env hs hb hp htight hf hn
    obtain ⟨batches, hstored, hvalues⟩ := hover.stored
    obtain ⟨hdrop, htake⟩ := rdrop_and_rtake hvalues
    rw [hover.length] at hdrop htake
    rw [htake] at hg ⊢
    obtain ⟨-, hmoves⟩ := sent_finish env hg hk (hover.stages.trans hs) (by rw [hover.sink]; exact hsink)
    exact ⟨hledger, hover.inSequence.pending, ⟨batches, hstored.holds, hdrop.symm⟩, hmoves⟩

/-- Pairs of values that are not zero, each pair in an array of its own. -/
def pairs : CountingChain where
  before := [.filter (fun v => .ok (v != .int 0)) none]
  before_plain := by decide
  size := 2
  size_pos := by decide
  reduce held := .ok (.array held)
  source := none
  after := [.transform (fun v => .ok (.array [v])) none]
  after_plain := by decide

/-- A running engine that makes pairs, before its first event. -/
def makingPairs (capacity : Nat) : Session MemorySource (Recorded MemorySink) where
  engine := { (ofMemory pairs.stages capacity).engine with sink := some ⟨⟨[], .null, false⟩, []⟩ }
  world := (ofMemory pairs.stages capacity).world

/-- Nobody listens, and no connector can be made. -/
def nobody : Environment MemorySource (Recorded MemorySink) := ⟨.empty, fun _ _ => .silent⟩

/-- With room for one value the first pair is written before the end, and then the value that is left; without
any room all values have gone to files before the end. -/
theorem count_window_boundary_pairs :
    sinkCalls (after nobody .finish (feed nobody [.int 1, .int 0, .int 2, .int 3] (makingPairs 1))) =
        [.write (.array [.array [.int 1, .int 2]]), .write (.array [.int 3])] ∧
      ∃ batches, List.Forall₂
          (Holds (feed nobody [.int 1, .int 0, .int 2, .int 3] (makingPairs 0)).world.host.files)
          (feed nobody [.int 1, .int 0, .int 2, .int 3] (makingPairs 0)).engine.spill.pending batches ∧
        batches.flatten = [.int 1, .int 2, .int 3] := by
  have hf : ∀ e ∈ ([.int 1, .int 0, .int 2, .int 3] : List Value),
      Chain.thread pairs.before e = .ok (if e = .int 0 then none else some e) := by
    decide
  have hk : NeverFails MemorySink := fun _ _ _ => rfl
  have hroom := (@count_window_boundary _ _ _ pairs _ _ _ (fun v => some (.array [v])) .array nobody
    (makingPairs 1) _ rfl rfl rfl rfl rfl hk hf rfl (fun _ _ => rfl) (fun _ _ => rfl)
    (by decide +kernel)).1 (by decide)
  have htight := (@count_window_boundary _ _ _ pairs _ _ _ (fun v => some (.array [v])) .array nobody
    (makingPairs 0) _ rfl rfl rfl rfl rfl hk hf rfl (fun _ _ => rfl) (fun _ _ => rfl)
    (by decide +kernel)).2 (by decide)
  exact ⟨hroom.1.calls, htight.2.2.1⟩

end

end Engine

end EventPipeline
