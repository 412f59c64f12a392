import EventPipeline.Proofs.Engine.Watched

/-!
# Subscribers and the life of an engine

If no subscriber fails on errors, an engine that was started handles what comes and comes to rest: a stop comes to its
end if the consumer and the caller go on acting (`comes_to_rest`), since every turn brings it nearer to its end or
leaves it where it is, and a round of turns brings it nearer (`Nearer`, `turnsLeft`). The main statement is
`subscribers_bearable`.

The condition on errors cannot be left out, and neither can those under which the buffer is cut back and the end of
the stream is announced: a subscriber that fails on an error makes the consumer break down, and the engine never stops
(`subscribers_break`).
-/

namespace EventPipeline

variable {σ κ : Type}

namespace Engine

open Watched (Deed Round)

section

variable {env : Environment σ (Recorded κ)} {w : Watched σ (Recorded κ)} [Feed σ] [Drain κ]

/-! ### A stop comes to its end -/

/-- The caller waits for the consumer to leave, or for the sink, or the engine has stopped. -/
def Leaving (w : Watched σ (Recorded κ)) : Prop :=
  w.call = some .emptyingQueue ∨ w.call = some .closingSink ∨ AtRest w

/-- How many turns of the consumer and of the caller are left at most. -/
def turnsLeft (w : Watched σ (Recorded κ)) : Nat :=
  match w.call with
  | some .emptyingQueue => stepsToLeave w.session + 2
  | some .closingSink => 1
  | _ => 0

omit [Feed σ] [Drain κ] in
theorem turnsLeft_of_emptying (h : w.call = some .emptyingQueue) : turnsLeft w = stepsToLeave w.session + 2 := by
  rw [turnsLeft, h]

omit [Feed σ] [Drain κ] in
theorem turnsLeft_of_closing (h : w.call = some .closingSink) : turnsLeft w = 1 := by rw [turnsLeft, h]

omit [Feed σ] [Drain κ] in
theorem AtRest.turnsLeft (h : AtRest w) : turnsLeft w = 0 := by rw [Engine.turnsLeft, h.call]

omit [Feed σ] [Drain κ] in
/-- Nothing is left just when the engine has stopped. -/
theorem Leaving.atRest (h : Leaving w) (hz : turnsLeft w = 0) : AtRest w := by
  rcases h with h | h | h
  · rw [turnsLeft_of_emptying h] at hz
    omega
  · rw [turnsLeft_of_closing h] at hz
    omega
  · exact h

omit [Feed σ] [Drain κ] in
/-- Where the consumer is while the caller waits for it. -/
theorem Sound.emptied (h : Sound env w) (hcall : w.call = some .emptyingQueue) :
    (isActive w.session.engine.consumer ∧ .stop ∈ waiting w.session) ∨ w.session.engine.consumer = .over := by
  cases h.phase with
  | attended hattended _ =>
    rw [hcall] at hattended
    generalize w.session.engine.state = state at hattended
    cases hattended
  | emptying _ _ hput hne =>
    cases hact : isActive w.session.engine.consumer with
    | true =>
      rw [h.order, List.mem_append] at hput
      exact .inl ⟨rfl, hput.resolve_left (h.stands.stop_notMem hact)⟩
    | false => exact .inr ((h.stands.over_or_absent hact).resolve_right hne)
  | closing hc => cases hcall.symm.trans hc
  | atRest hrest => cases hcall.symm.trans hrest.call

omit [Feed σ] [Drain κ] in
theorem Sound.closed (h : Sound env w) (hcall : w.call = some .closingSink) :
    w.session.engine.consumer = .absent := by
  cases h.phase with
  | attended hattended _ =>
    rw [hcall] at hattended
    generalize w.session.engine.state = state at hattended
    cases hattended
  | emptying hc => cases hcall.symm.trans hc
  | closing _ _ habsent => exact habsent
  | atRest hrest => cases hcall.symm.trans hrest.call

/-- What a turn does to a stop: it brings it nearer to its end, or leaves it where it is. -/
structure Nearer (w w' : Watched σ (Recorded κ)) : Prop where
  /-- The stop goes on. -/
  leaving : Leaving w'
  /-- No more turns are left than before. -/
  turns : turnsLeft w' ≤ turnsLeft w
  /-- A consumer that has left does not come back. -/
  left : isActive w.session.engine.consumer = false → isActive w'.session.engine.consumer = false

omit [Feed σ] [Drain κ] in
theorem Nearer.trans {w' w'' : Watched σ (Recorded κ)} (h : Nearer w w') (h' : Nearer w' w'') : Nearer w w'' :=
  ⟨h'.leaving, h'.turns.trans h.turns, fun hl => h'.left (h.left hl)⟩

omit [Feed σ] [Drain κ] in
theorem Leaving.same (h : Leaving w) : Nearer w w := ⟨h, Nat.le_refl _, id⟩

omit [Feed σ] [Drain κ] in
theorem Nearer.source (h : Sound env w) (hl : Leaving w) (f : Source σ → Source σ) (sent : Option SourceSignal) :
    Nearer w (w.source env f sent) := by
  obtain ⟨items, hi, hj⟩ := joins_sourceStep env f sent h.queue_isSome
  have hstate := (still_sourceStep env f sent w.session).state
  have hconsumer : (w.source env f sent).session.engine.consumer = w.session.engine.consumer := hj.consumer
  refine ⟨?_, ?_, fun hleft => by rw [hconsumer]; exact hleft⟩
  · exact hl.imp_right (.imp_right fun hrest : AtRest w => hrest.others hj hstate)
  · rcases hl with hcall | hcall | hrest
    · have hcall' : (w.source env f sent).call = some .emptyingQueue := hcall
      rw [turnsLeft_of_emptying hcall, turnsLeft_of_emptying hcall', Nat.add_le_add_iff_right]
      have hstages : (w.source env f sent).session.engine.stages = w.session.engine.stages :=
        congrArg Core.stages hj.core
      have hwaiting : waiting (w.source env f sent).session = waiting w.session ++ items := hj.waiting h.queue_isSome
      rcases h.emptied hcall with ⟨-, hstop⟩ | hover
      · simp only [stepsToLeave, hconsumer, hstages, hwaiting, stepsToStop_append _ hstop, le_refl]
      · simp [stepsToLeave, hconsumer, hover]
    · have hcall' : (w.source env f sent).call = some .closingSink := hcall
      rw [turnsLeft_of_closing hcall, turnsLeft_of_closing hcall']
    · have hrest' : AtRest (w.source env f sent) := hrest.others hj hstate
      rw [hrest'.turnsLeft]
      exact Nat.zero_le _

omit [Feed σ] in
theorem Nearer.consume (herror : env.QuietOn Notice.isError) (h : Sound env w) (hl : Leaving w) :
    Nearer w (w.consume env) ∧ (isActive w.session.engine.consumer → turnsLeft (w.consume env) < turnsLeft w) := by
  cases hact : isActive w.session.engine.consumer with
  | false =>
    rw [consume_of_inactive hact]
    exact ⟨⟨hl, Nat.le_refl _, id⟩, fun hactive => by cases hactive⟩
  | true =>
    rcases hl with hcall | hcall | hrest
    · have hcall' : (w.consume env).call = some .emptyingQueue := hcall
      have hstop := (h.emptied hcall).resolve_right fun hover => by rw [hover] at hact; cases hact
      have hless := (h.consume herror).2 hact hstop.2
      have hturns : turnsLeft (w.consume env) < turnsLeft w := by
        rw [turnsLeft_of_emptying hcall, turnsLeft_of_emptying hcall']
        omega
      exact ⟨⟨.inl hcall', hturns.le, fun hleft => by rw [hact] at hleft; cases hleft⟩, fun _ => hturns⟩
    · rw [h.closed hcall] at hact
      cases hact
    · rw [hrest.consumer] at hact
      cases hact

theorem Nearer.goOn (herror : env.QuietOn Notice.isError) (h : Sound env w) (hl : Leaving w) :
    Nearer w (w.goOn env) ∧
      (isActive w.session.engine.consumer = false → turnsLeft w ≠ 0 → turnsLeft (w.goOn env) < turnsLeft w) := by
  rcases hl with hcall | hcall | hrest
  · rcases h.emptied hcall with ⟨hact, -⟩ | hover
    · rw [goOn_of_active hcall hact]
      exact ⟨⟨.inl hcall, Nat.le_refl _, id⟩, fun hleft => by rw [hact] at hleft; cases hleft⟩
    · have hgone : w.goOn env =
          { w with session := { w.session with engine.consumer := .absent }, call := some .closingSink } :=
        goOn_of_over hcall hover h.sink
      have hcall' : (w.goOn env).call = some .closingSink := by rw [hgone]
      have hless : turnsLeft (w.goOn env) < turnsLeft w := by
        rw [turnsLeft_of_closing hcall', turnsLeft_of_emptying hcall]
        omega
      refine ⟨⟨.inr (.inl hcall'), hless.le, fun _ => by rw [hgone]; rfl⟩, fun _ _ => hless⟩
  · have hrest := (goOn_of_closing herror h hcall (h.closed hcall)).2
    have hless : turnsLeft (w.goOn env) < turnsLeft w := by
      rw [hrest.turnsLeft, turnsLeft_of_closing hcall]
      exact Nat.one_pos
    exact ⟨⟨.inr (.inr hrest), hless.le, fun _ => by rw [hrest.consumer]; rfl⟩, fun _ _ => hless⟩
  · rw [Watched.goOn, hrest.call]
    exact ⟨⟨.inr (.inr hrest), Nat.le_refl _, id⟩, fun _ hne => absurd hrest.turnsLeft hne⟩

/-- **Every turn brings a stop nearer to its end**, or leaves it where it is. -/
theorem Nearer.turn (herror : env.QuietOn Notice.isError) {w' : Watched σ (Recorded κ)} (h : Sound env w)
    (hl : Leaving w) (ht : Deed env w w') : Nearer w w' := by
  cases ht with
  | source f sent => exact Nearer.source h hl f sent
  | consume => exact (Nearer.consume herror h hl).1
  | goOn => exact (Nearer.goOn herror h hl).1
  | stop hcall =>
    rcases hl with hc | hc | hrest
    · cases hcall.symm.trans hc
    · cases hcall.symm.trans hc
    · rw [stop_eq_self hcall (by rw [hrest.state]; rfl)]
      exact ⟨.inr (.inr hrest), Nat.le_refl _, id⟩

theorem Nearer.reaches (herror : env.QuietOn Notice.isError) {w' : Watched σ (Recorded κ)} (h : Sound env w)
    (hl : Leaving w) (hw : Watched.Reaches env w w') : Nearer w w' := by
  induction hw with
  | refl => exact ⟨hl, Nat.le_refl _, id⟩
  | tail hreach ht ih => exact ih.trans (Nearer.turn herror (h.reaches herror hreach) ih.leaving ht)

/-- The source is being stopped, or the consumer has been told to leave. -/
def Stopping (w : Watched σ (Recorded κ)) : Prop := (∃ announces, w.call = some (.stoppingSource announces)) ∨ Leaving w

/-- Whoever stops the engine does not wait for the source to start. -/
theorem Stopping.soundGoOn (herror : env.QuietOn Notice.isError) (h : Sound env w) (hs : Stopping w) :
    Sound env (w.goOn env) := by
  refine h.goOn herror fun hcall => ?_
  rcases hs with ⟨announces, hc⟩ | hc | hc | hrest
  · cases hcall.symm.trans hc
  · cases hcall.symm.trans hc
  · cases hcall.symm.trans hc
  · cases hcall.symm.trans hrest.call

/-- **A round brings a stop nearer to its end.** -/
theorem Leaving.round (herror : env.QuietOn Notice.isError) {w' : Watched σ (Recorded κ)} (h : Sound env w)
    (hl : Leaving w) (hr : Round env w w') : Leaving w' ∧ (turnsLeft w ≠ 0 → turnsLeft w' < turnsLeft w) := by
  obtain ⟨u, v, hu, hv, hw'⟩ := hr
  have hsu := h.reaches herror hu
  have hsu' := (hsu.consume herror).1
  have hsv := hsu'.reaches herror hv
  have hnu := Nearer.reaches herror h hl hu
  obtain ⟨hnu', hact⟩ := Nearer.consume herror hsu hnu.leaving
  have hnv := Nearer.reaches herror hsu' hnu'.leaving hv
  obtain ⟨hnv', hgone⟩ := Nearer.goOn herror hsv hnv.leaving
  have hnw' := Nearer.reaches herror (Stopping.soundGoOn herror hsv (.inr hnv.leaving)) hnv'.leaving hw'
  refine ⟨hnw'.leaving, fun hne => ?_⟩
  have hle := hnu.turns
  have hle' := hnu'.turns
  have hle'' := hnv.turns
  have hle₃ := hnv'.turns
  have hle₄ := hnw'.turns
  -- the consumer has made a step, or else the caller sees that it has left
  cases hactive : isActive u.session.engine.consumer with
  | true =>
    have hless := hact hactive
    omega
  | false =>
    have hleft := hnv.left (hnu'.left hactive)
    by_cases hz : turnsLeft v = 0
    · omega
    · have hless := hgone hleft hz
      omega

omit [Feed σ] [Drain κ] in
theorem Sound.stopping (h : Sound env w) (hstate : w.session.engine.state = .stopping) : Stopping w := by
  cases h.phase with
  | attended hattended _ =>
    rw [hstate] at hattended
    generalize hcall : w.call = call at hattended
    cases hattended with
    | stopping announces => exact .inl ⟨announces, hcall⟩
  | emptying hcall => exact .inr (.inl hcall)
  | closing hcall => exact .inr (.inr (.inl hcall))
  | atRest hrest => exact .inr (.inr (.inr hrest))

/-- Once the source has stopped, the consumer has been told to leave. -/
theorem Stopping.goOn (herror : env.QuietOn Notice.isError) (h : Sound env w) (hs : Stopping w) :
    Leaving (w.goOn env) := by
  rcases hs with ⟨announces, hcall⟩ | hl
  · cases h.phase with
    | attended _ hnot =>
      obtain ⟨items, t, hp, -⟩ := stopSource_returns herror announces h.queue_isSome (h.active hnot)
      refine .inl ?_
      rw [Watched.goOn, hcall]
      dsimp only [proceed]
      rw [hp]
      rfl
    | emptying hc => cases hcall.symm.trans hc
    | closing hc => cases hcall.symm.trans hc
    | atRest hrest => cases hcall.symm.trans hrest.call
  · exact (Nearer.goOn herror h hl).1.leaving

theorem Stopping.reaches (herror : env.QuietOn Notice.isError) {w' : Watched σ (Recorded κ)} (h : Sound env w)
    (hs : Stopping w) (hw : Watched.Reaches env w w') : Stopping w' := by
  induction hw with
  | refl => exact hs
  | @tail u v hreach ht ih =>
    have hsu := h.reaches herror hreach
    rcases ih with ⟨announces, hcall⟩ | hl
    · cases ht with
      | source => exact .inl ⟨announces, hcall⟩
      | consume => exact .inl ⟨announces, hcall⟩
      | goOn => exact .inr (Stopping.goOn herror hsu (.inl ⟨announces, hcall⟩))
      | stop hnone => cases hcall.symm.trans hnone
    · exact .inr (Nearer.turn herror hsu hl ht).leaving

/-- A round later the consumer has been told to leave. -/
theorem Stopping.round (herror : env.QuietOn Notice.isError) {w' : Watched σ (Recorded κ)} (h : Sound env w)
    (hs : Stopping w) (hr : Round env w w') : Sound env w' ∧ Leaving w' := by
  obtain ⟨u, v, hu, hv, hw'⟩ := hr
  have hsu := h.reaches herror hu
  have hsv := hsu.consume herror |>.1.reaches herror hv
  have hstopping := Stopping.reaches herror h hs (hu.tail (.consume u) |>.trans hv)
  have hsv' := hstopping.soundGoOn herror hsv
  exact ⟨hsv'.reaches herror hw', (Nearer.reaches herror hsv' (hstopping.goOn herror hsv) hw').leaving⟩

/-- A stop comes to its end once the consumer has been told to leave. -/
theorem Leaving.comes_to_rest (herror : env.QuietOn Notice.isError) (run : Nat → Watched σ (Recorded κ))
    (hround : ∀ n, Round env (run n) (run (n + 1))) (h : Sound env (run 0)) (hl : Leaving (run 0)) :
    ∃ n, AtRest (run n) := by
  induction hk : turnsLeft (run 0) using Nat.strong_induction_on generalizing run with
  | _ k ih =>
    by_cases hz : turnsLeft (run 0) = 0
    · exact ⟨0, hl.atRest hz⟩
    · obtain ⟨hl', hless⟩ := hl.round herror h (hround 0)
      have hsound := (Stopping.round herror h (.inr hl) (hround 0)).1
      obtain ⟨n, hn⟩ := ih _ (hk ▸ hless hz) (fun n => run (n + 1)) (fun n => hround (n + 1)) hsound hl' rfl
      exact ⟨n + 1, hn⟩

/-- **A stop comes to its end**, if the consumer and the caller go on acting, whatever the source does and whatever
the subscribers do, except for errors. -/
theorem comes_to_rest (herror : env.QuietOn Notice.isError) (run : Nat → Watched σ (Recorded κ))
    (hround : ∀ n, Round env (run n) (run (n + 1))) (h : Sound env (run 0))
    (hstate : (run 0).session.engine.state = .stopping) : ∃ n, AtRest (run n) := by
  obtain ⟨hsound, hleaving⟩ := (h.stopping hstate).round herror h (hround 0)
  obtain ⟨n, hn⟩ := hleaving.comes_to_rest herror (fun n => run (n + 1)) (fun n => hround (n + 1)) hsound
  exact ⟨n + 1, hn⟩

/-- **Subscribers can be borne.** Take an engine that was started, and any turns of the source, the consumer and the
caller. Subscribers may fail as they like, except on errors. Then:

* the items are taken in the order of their coming, each is handled to the end before the next one is taken, and the
  consumer is there until it has taken the one that tells it to leave;
* what the chain delivers for an event is due next, and a write that is due is made;
* if no subscriber fails on rejections and writes, the buffer does not exceed its capacity after an event, unless a
  file could not be written;
* if no subscriber fails on writes, the end of the stream is announced once it has been handled;
* an engine that has stopped has closed its sink last and removed the spilled values, and a stop comes to its end if the
  consumer and the caller go on acting. -/
theorem subscribers_bearable (herror : env.QuietOn Notice.isError) {idle s : Session σ (Recorded κ)}
    (hstart : perform (Engine.start env) idle = (.ok (some .startingSource), s))
    (hw : Watched.Reaches env (Watched.begun s) w) :
    (w.put = w.taken ++ waiting w.session ∧ Stands w.taken w.session.engine.consumer ∧
      w.session.engine.queue =
        some ⟨waiting w.session, (waiting w.session).length + busy w.session.engine.consumer⟩) ∧
    (∀ event v rest, w.session.engine.consumer = .waiting → waiting w.session = .event event :: rest →
      (chainResult w.session event).1.delivered? = some v →
        (w.consume env).session.engine.consumer = .writing v .event) ∧
    (∀ v next, w.session.engine.consumer = .writing v next →
      sinkCalls (w.consume env).session = sinkCalls w.session ++ [.write v]) ∧
    (env.QuietOn Notice.isFiltered → env.QuietOn Notice.isProcessed → w.session.engine.consumer = .waiting →
      ∀ event, w.taken.getLast? = some (.event event) → Trimmed w.session) ∧
    (env.QuietOn Notice.isProcessed → .finished ∈ w.taken →
      w.session.engine.ended = some true ∨ ∃ v rest, w.session.engine.consumer = .writing v (.flush rest)) ∧
    (w.session.engine.state = .stopped → AtRest w) ∧
    (w.call = none → w.session.engine.state = .running → (w.stop env).session.engine.state = .stopping) ∧
    (w.session.engine.state = .stopping → ∀ run : Nat → Watched σ (Recorded κ), run 0 = w →
      (∀ n, Round env (run n) (run (n + 1))) → ∃ n, AtRest (run n)) := by
  have h := (Sound.begun hstart).reaches herror hw
  refine ⟨⟨h.order, h.stands, h.queue⟩, fun event v rest hc hwaiting hv => ?_, fun v next hc => ?_,
    fun hfiltered hprocessed hc event hlast => h.done hc _ hlast hfiltered hprocessed, h.ended, fun hstate => ?_,
    fun hcall hstate => ?_, ?_⟩
  · have hqueue := h.queue
    rw [hwaiting] at hqueue
    exact take_delivers herror hc hqueue hv
  · have hstands := h.stands
    rw [hc] at hstands
    generalize w.taken = taken at hstands
    cases hstands with
    | writing _ hf =>
      obtain ⟨due, t, hp, hd⟩ := write_step herror hc hf h.sink
      have hsession : (w.consume env).session = placed due t := congrArg Prod.snd hp
      rw [hsession, sinkCalls, sink_placed]
      exact hd.keeps.calls
  · cases h.phase with
    | attended hattended _ =>
      rw [hstate] at hattended
      generalize w.call = call at hattended
      cases hattended
    | emptying _ hs => cases hs.symm.trans hstate
    | closing _ hs => cases hs.symm.trans hstate
    | atRest hrest => exact hrest
  · cases h.phase with
    | attended _ hnot =>
      obtain ⟨t, ht, ⟨_, hp, -⟩ | ⟨hp, -⟩⟩ := @stop_returns _ _ _ env _ hstate h.queue_isSome (h.active hnot)
      · rw [Watched.stop, hp]
        exact ht
      · rw [Watched.stop, hp]
        exact ht
    | emptying hc => cases hcall.symm.trans hc
    | closing hc => cases hcall.symm.trans hc
    | atRest hrest => cases hrest.state.symm.trans hstate
  · rintro hstate run rfl hround
    exact comes_to_rest herror run hround h hstate

end

/-! ### When subscribers fail on more -/

section

variable [Feed σ] [Drain κ] {env : Environment σ (Recorded κ)} {w w' : Watched σ (Recorded κ)}

/-- The consumer has broken down, and the stop has failed. -/
structure Wrecked (w : Watched σ (Recorded κ)) : Prop where
  /-- The stop has failed. -/
  call : w.call = none
  /-- The engine is being stopped. -/
  state : w.session.engine.state = .stopping
  /-- The consumer is not there. -/
  consumer : isActive w.session.engine.consumer = false

/-- **A wrecked engine stays wrecked.** -/
theorem Wrecked.turn (h : Wrecked w) (hq : w.session.engine.queue.isSome) (ht : Deed env w w') :
    Wrecked w' ∧ w'.session.engine.queue.isSome ∧ sinkCalls w'.session = sinkCalls w.session := by
  cases ht with
  | source f sent =>
    obtain ⟨items, -, hj⟩ := joins_sourceStep env f sent hq
    have hstill := still_sourceStep env f sent w.session
    have hsink : (w.source env f sent).session.engine.sink = w.session.engine.sink := congrArg Core.sink hj.core
    refine ⟨⟨h.call, hstill.state.trans h.state, ?_⟩, hj.isSome hq, by rw [sinkCalls, sinkCalls, hsink]⟩
    show isActive (perform (sourceStep env f sent) w.session).2.engine.consumer = false
    rw [hj.consumer]
    exact h.consumer
  | consume =>
    rw [consume_of_inactive h.consumer]
    exact ⟨h, hq, rfl⟩
  | goOn =>
    rw [Watched.goOn, h.call]
    exact ⟨h, hq, rfl⟩
  | stop =>
    rw [stop_eq_self h.call (by rw [h.state]; rfl)]
    exact ⟨h, hq, rfl⟩

theorem Wrecked.reaches (h : Wrecked w) (hq : w.session.engine.queue.isSome) (hw : Watched.Reaches env w w') :
    Wrecked w' ∧ w'.session.engine.queue.isSome ∧ sinkCalls w'.session = sinkCalls w.session := by
  induction hw with
  | refl => exact ⟨h, hq, rfl⟩
  | tail _ ht ih =>
    obtain ⟨hu, hqu, hsu⟩ := ih
    obtain ⟨hv, hqv, hsv⟩ := hu.turn hqu ht
    exact ⟨hv, hqv, hsv.trans hsu⟩

end

/-! ### Runs in memory -/

/-- Connectors in memory; a subscriber fails on the notices of a kind. -/
def failingOn (kind : Notice → Bool) : Environment MemorySource (Recorded MemorySink) where
  registry := inMemory.registry
  subscriber _ n := if kind n then ⟨[], [], some (.plain .value "refused")⟩ else .silent

/-- An engine with stages, about to start its source; its buffer has room for one value. -/
def aboutToStartWith (stages : List Stage) : Session MemorySource (Recorded MemorySink) :=
  { aboutToStart with engine := { aboutToStart.engine with stages := stages } }

/-- The start has come to the source. -/
def startedWith (kind : Notice → Bool) (stages : List Stage) : Watched MemorySource (Recorded MemorySink) :=
  .begun (perform (Engine.start (failingOn kind)) (aboutToStartWith stages)).2

/-- An act of one of the parties. -/
inductive Party where
  /-- The source sends a signal. -/
  | send (sent : SourceSignal)
  /-- The consumer makes a step. -/
  | consume
  /-- The caller goes on. -/
  | goOn
  /-- The caller stops the engine. -/
  | stop

/-- What comes of an act. -/
def Party.act (kind : Notice → Bool) (w : Watched MemorySource (Recorded MemorySink)) :
    Party → Watched MemorySource (Recorded MemorySink)
  | send sent => w.source (failingOn kind) id (some sent)
  | consume => w.consume (failingOn kind)
  | goOn => w.goOn (failingOn kind)
  | stop => w.stop (failingOn kind)

/-- The act is a turn. -/
def Party.isTurn (kind : Notice → Bool) (w : Watched MemorySource (Recorded MemorySink)) : Party → Bool
  | goOn => w.call != some .startingSource || (w.goOn (failingOn kind)).session.engine.state = .running
  | stop => w.call = none
  | _ => true

/-- What comes of acts, one after the other. -/
def afterParties (kind : Notice → Bool) (acts : List Party) (w : Watched MemorySource (Recorded MemorySink)) :
    Watched MemorySource (Recorded MemorySink) :=
  acts.foldl (Party.act kind) w

/-- The acts are turns. -/
def areTurns (kind : Notice → Bool) : List Party → Watched MemorySource (Recorded MemorySink) → Bool
  | [], _ => true
  | p :: rest, w => p.isTurn kind w && areTurns kind rest (p.act kind w)

theorem reaches_afterParties {kind : Notice → Bool} {acts : List Party} {w : Watched MemorySource (Recorded MemorySink)}
    (h : areTurns kind acts w = true) : Watched.Reaches (failingOn kind) w (afterParties kind acts w) := by
  induction acts generalizing w with
  | nil => exact .refl
  | cons p rest ih =>
    rw [areTurns, Bool.and_eq_true] at h
    refine .head ?_ (ih h.2)
    cases p with
    | send sent => exact .source w id (some sent)
    | consume => exact .consume w
    | goOn =>
      refine .goOn w fun hcall => ?_
      simpa [Party.isTurn, hcall] using h.1
    | stop => exact .stop w (by simpa [Party.isTurn] using h.1)

/-- Every notice but an error. -/
def allButErrors (n : Notice) : Bool := !n.isError

/-- Two events and the end come, and the engine is stopped while the consumer is at its first write. -/
def stoppedAtWrite : List Party :=
  [.goOn, .send (.data (.int 1)), .send (.data (.int 2)), .consume, .send .finished, .stop]

/-- The consumer makes a step, and then the caller goes on. -/
def oneRound (w : Watched MemorySource (Recorded MemorySink)) : Watched MemorySource (Recorded MemorySink) :=
  (w.consume (failingOn allButErrors)).goOn (failingOn allButErrors)

/-- Although its subscribers fail on everything but errors, the engine handles what has come and closes its sink. -/
theorem subscribers_bearable_all_but_errors :
    ∃ n, (sinkCalls (oneRound^[n]
      (afterParties allButErrors stoppedAtWrite (startedWith allButErrors []))).session).getLast? = some .close := by
  have herror : (failingOn allButErrors).QuietOn Notice.isError := by
    intro told n hn
    simp [failingOn, allButErrors, hn, Response.silent]
  have hreach : Watched.Reaches (failingOn allButErrors) (startedWith allButErrors [])
      (afterParties allButErrors stoppedAtWrite (startedWith allButErrors [])) :=
    reaches_afterParties (by decide +kernel)
  have hstopping : (afterParties allButErrors stoppedAtWrite (startedWith allButErrors [])).session.engine.state =
      .stopping := by decide +kernel
  generalize afterParties allButErrors stoppedAtWrite (startedWith allButErrors []) = w at *
  have hround : ∀ n, Round (failingOn allButErrors) (oneRound^[n] w) (oneRound^[n + 1] w) := by
    intro n
    rw [Function.iterate_succ_apply']
    exact ⟨_, _, .refl, .refl, .refl⟩
  obtain ⟨-, -, -, -, -, -, -, hrest⟩ := @subscribers_bearable _ _ _ _ _ _ herror (aboutToStartWith []) _ rfl hreach
  obtain ⟨n, hn⟩ := hrest hstopping (fun n => oneRound^[n] w) rfl hround
  exact ⟨n, hn.closed⟩

/-- A stage that fails on every value. -/
def failingStage : Stage := .transform (fun _ => .error (.plain .value "no")) none

/-- An aggregate stage that closes a window with every value and cannot reduce it. -/
def failingWindow : Stage := .aggregate ⟨some 1, none⟩ (fun _ => .error (.plain .value "no")) none

/-- A filter that rejects every value. -/
def rejecting : Stage := .filter (fun _ => .ok false) none

/-- Two events come, and the engine is stopped. -/
def twoEventsAndStop : List Party :=
  [.goOn, .send (.data (.int 1)), .send (.data (.int 2)), .consume, .stop, .goOn, .consume, .goOn]

/-- Two events come and are handled. -/
def twoEventsHandled : List Party :=
  [.goOn, .send (.data (.int 1)), .send (.data (.int 2)), .consume, .consume]

/-- An event and the end come and are handled. -/
def eventAndEnd : List Party :=
  [.goOn, .send (.data (.int 1)), .send .finished, .consume, .consume, .consume]

/-- **Subscribers can break an engine.** One that fails on an error makes the consumer break down: the next event
stays in the queue, the stop fails, and whatever happens then, the engine never stops and its sink is never closed. One
that fails on a rejection leaves more values in the buffer than it has room for. One that fails on a write keeps the
end of the stream from being announced. -/
theorem subscribers_break :
    (∃ w, Watched.Reaches (failingOn Notice.isError) (startedWith Notice.isError [failingStage]) w ∧
      waiting w.session = [.event (.int 2), .stop] ∧
      ∀ w', Watched.Reaches (failingOn Notice.isError) w w' →
        w'.session.engine.state = .stopping ∧ sinkCalls w'.session = []) ∧
    (∃ w, Watched.Reaches (failingOn Notice.isFiltered) (startedWith Notice.isFiltered [failingWindow, rejecting]) w ∧
      w.taken = [.event (.int 1), .event (.int 2)] ∧ w.session.engine.queue = some ⟨[], 0⟩ ∧
      w.session.world.definition.capacity = 1 ∧ w.session.engine.buffer = [.int 1, .int 2] ∧
      ∀ n ∈ w.session.world.notices, n.isSpillFailure = false) ∧
    ∃ w, Watched.Reaches (failingOn Notice.isProcessed)
        (startedWith Notice.isProcessed [.aggregate ⟨some 2, none⟩ (fun held => .ok (.array held)) none]) w ∧
      w.taken = [.event (.int 1), .finished] ∧ w.session.engine.queue = some ⟨[], 0⟩ ∧
      w.session.engine.ended = some false := by
  refine ⟨⟨_, @reaches_afterParties _ twoEventsAndStop _ (by decide +kernel), by decide +kernel, ?_⟩,
    ⟨_, @reaches_afterParties _ twoEventsHandled _ (by decide +kernel), ?_⟩,
    ⟨_, @reaches_afterParties _ eventAndEnd _ (by decide +kernel), ?_⟩⟩
  · intro w' hw'
    have hwrecked :
        Wrecked (afterParties Notice.isError twoEventsAndStop (startedWith Notice.isError [failingStage])) :=
      ⟨by decide +kernel, by decide +kernel, by decide +kernel⟩
    obtain ⟨h, -, hcalls⟩ := hwrecked.reaches (by decide +kernel) hw'
    exact ⟨h.state, hcalls.trans (by decide +kernel)⟩
  · decide +kernel
  · decide +kernel

end Engine

end EventPipeline
