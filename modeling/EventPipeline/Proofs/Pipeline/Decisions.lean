import EventPipeline.Proofs.Number.Range
import EventPipeline.Proofs.Pipeline.Closing
import EventPipeline.Proofs.Pipeline.Composition
import EventPipeline.Proofs.Pipeline.LaterStages

/-!
# Windows that cannot be decided

The age of the oldest value is a difference of two numbers in double precision, and an integer may be too
large to have one. A window that depends on the clock cannot be decided when that is so of the time of the
oldest value or of the reading (`Window.Undecidable`). The aggregate stage then fails although its reducer
does not, and it fails after the value was pushed: the value is held, and it goes on to the next stage all the
same.

Nothing else makes such a stage fail (`Chain.decision_fails_iff`). As long as the times of the values taken in
and the readings of the clock are in range, every decision is reached.
-/

namespace EventPipeline

/-! ### Windows that cannot be decided -/

/-- The window depends on the clock, and the time of the oldest value or the reading has no double precision number. -/
def Window.Undecidable (field : Text) (w : Window) (held : List Value) (clock : Clock) : Prop :=
  ∃ span time, w.Asks field held span time ∧ ¬ (time.InRange ∧ clock.read.1.InRange)

/-- Values whose times are in range can be decided on, by a clock whose readings are. -/
theorem Window.not_undecidable {field : Text} {w : Window} {held : List Value} {clock : Clock}
    (htimes : ∀ v ∈ held, ∀ time ∈ v.time? field, time.InRange) (hclock : ∀ r ∈ clock.readings, r.InRange) :
    ¬ w.Undecidable field held clock := by
  rintro ⟨span, time, ⟨-, -, oldest, holdest, htime⟩, h⟩
  refine h ⟨htimes oldest (List.mem_of_mem_head? holdest) time htime, ?_⟩
  rcases clock.read_mem with hr | hr
  · exact hclock _ hr
  · rw [hr]
    trivial

namespace Accumulator

variable {field : Text} {w : Window} {a : Accumulator} {reduce : List Value → Except Failure Value}

theorem shouldClose_fails_iff :
    (∃ f, (perform (shouldClose field w) a).1 = .error f) ↔ w.Undecidable field a.buffer a.clock := by
  rcases shouldClose_cases field w a with ⟨hfull, h⟩ | ⟨span, time, hasks, h⟩ | ⟨-, hnone, h⟩
  all_goals rw [h]
  · exact iff_of_false (fun ⟨f, hf⟩ => nomatch hf) fun ⟨span, time, hasks, _⟩ => hasks.1 hfull
  · have hiff : w.Undecidable field a.buffer a.clock ↔ ¬ (time.InRange ∧ a.clock.read.1.InRange) := by
      refine ⟨fun ⟨span', time', hasks', h⟩ => ?_, fun h => ⟨span, time, hasks, h⟩⟩
      rwa [(hasks.unique hasks').2]
    rw [hiff, ← Number.toFloat_ok_iff, ← Number.toFloat_ok_iff]
    cases time.toFloat with
    | error e => simp
    | ok t =>
      simp only [spanReached_eq]
      cases a.clock.read.1.toFloat <;> simp
  · exact iff_of_false (fun ⟨f, hf⟩ => nomatch hf) fun ⟨span, time, hasks, _⟩ => hnone span time hasks

/-- **With a reducer that never fails**, a value is refused just if its window cannot be decided. -/
theorem accumulate_fails_iff (hr : ∀ held, ∃ r, reduce held = .ok r) (v : Value) :
    (∃ f, (perform (accumulate field w reduce v) a).1 = .error f) ↔
      w.Undecidable field (a.buffer.push v) a.clock := by
  have h := @shouldClose_fails_iff field w { a with buffer := a.buffer.push v }
  rw [← h, accumulate, perform_bind_ok (perform_modify _ _), perform_bind]
  rcases perform (shouldClose field w) { a with buffer := a.buffer.push v } with ⟨f | close, t⟩
  · exact iff_of_true ⟨f, rfl⟩ ⟨f, rfl⟩
  · refine iff_of_false ?_ (by rintro ⟨f, ⟨⟩⟩)
    cases close with
    | false => rintro ⟨f, ⟨⟩⟩
    | true =>
      simp only [if_true, reduceAll, bind_assoc, perform_bind_ok (perform_get t)]
      obtain ⟨r, hr⟩ := hr t.buffer
      rw [hr]
      rintro ⟨f, ⟨⟩⟩

/-- The readings to come are taken from the clock only. -/
def ClockKept (a b : Accumulator) : Prop := b.clock.readings ⊆ a.clock.readings

instance : IsPreorder Accumulator ClockKept where
  refl _ := List.Subset.refl _
  trans _ _ _ h h' := List.Subset.trans h' h

theorem clockKept_accumulate (v : Value) : Leads ClockKept (accumulate field w reduce v) := by
  have hclose : Leads ClockKept (shouldClose field w) := by
    intro a
    rcases shouldClose_cases field w a with ⟨-, h⟩ | ⟨span, time, -, h⟩ | ⟨-, -, h⟩
    all_goals rw [h]
    · exact refl_of ClockKept a
    · cases time.toFloat with
      | error e => exact refl_of ClockKept a
      | ok t => exact a.clock.readings_read
    · exact refl_of ClockKept a
  refine Leads.bind (Leads.modify fun a => refl_of ClockKept a) fun _ => Leads.bind hclose fun close => ?_
  cases close with
  | false => exact Leads.pure _
  | true =>
    refine Leads.bind (Leads.get_bind fun a => ?_) fun _ => Leads.pure _
    cases reduce a.buffer <;> exact List.Subset.refl _

end Accumulator

/-! ### Whole chains -/

namespace Chain

variable (field : Text) (stages : List Stage)

/-- The values held and the clock after events have run through a chain, one after the other. -/
def afterEvents (events : List Value) (a : Accumulator) : Accumulator :=
  events.foldl (fun a event => ((run field stages event).run a).2) a

/-- The values that aggregate stages take in while events run through a chain, in order. -/
def takenIn : List Value → Accumulator → List Value
  | [], _ => []
  | event :: events, a =>
    (visits field stages event a).map Visit.value ++ takenIn events ((run field stages event).run a).2

theorem takenIn_append (events more : List Value) (a : Accumulator) :
    takenIn field stages (events ++ more) a =
      takenIn field stages events a ++ takenIn field stages more (afterEvents field stages events a) := by
  induction events generalizing a with
  | nil => rfl
  | cons event events ih => rw [List.cons_append, takenIn, takenIn, ih, List.append_assoc, afterEvents, afterEvents,
      List.foldl_cons]

variable {field stages}

/-- What is held was held before or has been taken in. -/
theorem mem_buffer_run {event : Value} {a : Accumulator} {v : Value}
    (h : v ∈ ((run field stages event).run a).2.buffer) :
    v ∈ a.buffer ∨ v ∈ (visits field stages event a).map Visit.value := by
  rw [← List.mem_append, ← visits_balance]
  exact List.mem_append_right _ h

theorem mem_buffer_afterEvents {events : List Value} {a : Accumulator} {v : Value}
    (h : v ∈ (afterEvents field stages events a).buffer) : v ∈ a.buffer ∨ v ∈ takenIn field stages events a := by
  induction events generalizing a with
  | nil => exact .inl h
  | cons event events ih =>
    rw [takenIn, List.mem_append]
    rcases ih h with h | h
    · exact (mem_buffer_run h).imp_right .inl
    · exact .inr (.inr h)

theorem clockKept_run (event : Value) (a : Accumulator) :
    Accumulator.ClockKept a ((run field stages event).run a).2 :=
  leads_runWith (fun _ _ _ x s => Accumulator.clockKept_accumulate x s) stages 0 (some event) a

theorem clockKept_afterEvents (events : List Value) (a : Accumulator) :
    Accumulator.ClockKept a (afterEvents field stages events a) := by
  induction events generalizing a with
  | nil => exact refl_of Accumulator.ClockKept a
  | cons event events ih =>
    exact trans_of Accumulator.ClockKept (clockKept_run event a) (ih _)

/-- **The visits of a chain in two parts**: those of the first part, and behind them those of the second one. -/
theorem visits_append {before : List Stage} {event x : Value} {a : Accumulator}
    (hx : ((run field before event).run a).1.delivered? = some x) (after : List Stage) :
    visits field (before ++ after) event a =
      visits field before event a ++
        visitsFrom field before.length (some x) after ((run field before event).run a).2 := by
  rw [watch_erase field before event a []] at hx ⊢
  have happend : (watch field (before ++ after) event).run (a, []) = _ :=
    (runWith_append (watchingIntake field) 0 (some event) before after (a, [])).trans (goOn_of_some _ hx)
  rw [Nat.zero_add] at happend
  rw [visits, happend]
  exact run_watchingIntake_log field before.length (some x) after _ _

/-- What comes to an aggregate stage is taken in. -/
theorem mem_visits_of_delivered {event x : Value} {a : Accumulator} {i : ℕ} {w : Window}
    {reduce : List Value → Except Failure Value} {source : Option Text}
    (hs : stages[i]? = some (.aggregate w reduce source))
    (hx : ((run field (stages.take i) event).run a).1.delivered? = some x) {v : Value}
    (hv : v = x ∨ v ∈ (visits field (stages.take i) event a).map Visit.value) :
    v ∈ (visits field stages event a).map Visit.value := by
  obtain ⟨hi, hget⟩ := List.getElem?_eq_some_iff.1 hs
  have hstages : stages = stages.take i ++ .aggregate w reduce source :: stages.drop (i + 1) := by
    rw [← hget, List.getElem_cons_drop, List.take_append_drop]
  rw [hstages, visits_append hx, visitsFrom_aggregate field _ (ne_null_of_delivered hx), List.map_append,
    List.mem_append, List.map_cons, List.mem_cons]
  exact hv.symm.imp_right .inl

/-! ### The stage that decides -/

section Decision

variable {i : ℕ} {w : Window} {reduce : List Value → Except Failure Value} {source : Option Text} {event x : Value}
  {a : Accumulator}

/-- The run up to an aggregate stage and through it. -/
theorem run_through_aggregate (hs : stages[i]? = some (.aggregate w reduce source))
    (hx : ((run field (stages.take i) event).run a).1.delivered? = some x) :
    let before := (run field (stages.take i) event).run a
    let behind := (run field (stages.take (i + 1)) event).run a
    let taken := perform (Accumulator.accumulate field w reduce x) before.2
    behind.1.value = passedOn x taken.1 ∧ behind.2 = taken.2 := by
  intro before behind taken
  have hbehind : behind = _ := run_take_succ hs hx
  have hintake : ∀ n, (bufferIntake field n w reduce x).run before.2 = taken := fun _ => rfl
  rw [hbehind, runWith_aggregate _ (ne_null_of_delivered hx), StateT.run_bind, hintake]
  rcases taken with ⟨f | y, b⟩ <;> exact ⟨rfl, rfl⟩

/-- The failures of an aggregate stage that are on record are its failures to take a value in. -/
theorem errors_of_aggregate (hs : stages[i]? = some (.aggregate w reduce source)) :
    (∃ e ∈ ((run field stages event).run a).1.errors, e.stageIndex? = some (i : Int)) ↔
      ∃ x, ((run field (stages.take i) event).run a).1.delivered? = some x ∧
        ∃ f, (perform (Accumulator.accumulate field w reduce x) ((run field (stages.take i) event).run a).2).1 =
          .error f := by
  have hfailure : (∃ e, failureAt? field stages event a i = some e) ↔
      ∃ x, ((run field (stages.take i) event).run a).1.delivered? = some x ∧
        ∃ f, (perform (Accumulator.accumulate field w reduce x) ((run field (stages.take i) event).run a).2).1 =
          .error f := by
    simp only [failureAt?, hs, Option.bind_some, Option.bind_eq_some_iff, Option.map_eq_some_iff, Stage.failure?,
      failure?_eq_some_iff]
    constructor
    · rintro ⟨-, x, hx, f, hf, -⟩
      exact ⟨x, hx, f, hf⟩
    · rintro ⟨x, hx, f, hf⟩
      exact ⟨_, x, hx, f, hf, rfl⟩
  rw [← hfailure, errors_run]
  constructor
  · rintro ⟨e, he, hindex⟩
    obtain ⟨j, -, hj⟩ := List.mem_filterMap.1 he
    rw [stageIndex?_of_failureAt? hj, Option.some_inj, Int.natCast_inj] at hindex
    exact ⟨e, hindex ▸ hj⟩
  · rintro ⟨e, he⟩
    have hi : i < stages.length := (List.getElem?_eq_some_iff.1 hs).1
    exact ⟨e, List.mem_filterMap.2 ⟨i, List.mem_range.2 hi, he⟩, stageIndex?_of_failureAt? he⟩

/-- **An aggregate stage whose reducer never fails** fails on a value just if its window cannot be decided; then
the value is held and goes on all the same, which it never does otherwise. That takes a time or a reading
without a double precision number. -/
theorem decision_fails_iff (hs : stages[i]? = some (.aggregate w reduce source))
    (hr : ∀ held, ∃ r, reduce held = .ok r) (clock : Clock) (events : List Value) (event : Value) :
    let a := afterEvents field stages events ⟨[], clock⟩
    let before := (run field (stages.take i) event).run a
    let behind := (run field (stages.take (i + 1)) event).run a
    ((∃ e ∈ ((run field stages event).run a).1.errors, e.stageIndex? = some (i : Int)) ↔
      ∃ x, before.1.delivered? = some x ∧ w.Undecidable field (before.2.buffer.push x) before.2.clock) ∧
    (∀ x, before.1.delivered? = some x →
      (w.Undecidable field (before.2.buffer.push x) before.2.clock →
        behind.1.delivered? = some x ∧ behind.2.buffer = before.2.buffer.push x) ∧
      (¬ w.Undecidable field (before.2.buffer.push x) before.2.clock →
        behind.1.delivered? = none ∨ behind.2.buffer = [])) ∧
    ((∀ v ∈ takenIn field stages (events ++ [event]) ⟨[], clock⟩, ∀ time ∈ v.time? field, time.InRange) →
      (∀ r ∈ clock.readings, r.InRange) →
      ∀ x, before.1.delivered? = some x → ¬ w.Undecidable field (before.2.buffer.push x) before.2.clock) := by
  intro a before behind
  refine ⟨?_, fun x hx => ?_, fun htimes hclock x hx => ?_⟩
  · rw [errors_of_aggregate hs]
    simp only [Accumulator.accumulate_fails_iff hr]
    rfl
  · obtain ⟨hvalue, hstate⟩ := run_through_aggregate hs hx
    rw [hstate, delivered?_eq, hvalue, ← Accumulator.accumulate_fails_iff hr]
    rcases Accumulator.accumulate_cases field w reduce x before.2 with ⟨r, b, hp, -, hb⟩ | ⟨b, hp, hb⟩ | ⟨f, b, hp, hb⟩
    all_goals rw [hp]
    · exact ⟨fun ⟨f, hf⟩ => (nomatch hf), fun _ => .inr hb⟩
    · exact ⟨fun ⟨f, hf⟩ => (nomatch hf), fun _ => .inl rfl⟩
    · exact ⟨fun _ => ⟨present?_of_ne_null (ne_null_of_delivered hx), hb⟩, fun h => absurd ⟨f, rfl⟩ h⟩
  · refine Window.not_undecidable (fun v hv => htimes v ?_) fun r hr => hclock r ?_
    · rw [takenIn_append, List.mem_append]
      rcases List.mem_append.1 hv with hv | hv
      · rcases mem_buffer_run hv with hv | hv
        · exact .inl ((mem_buffer_afterEvents hv).resolve_left List.not_mem_nil)
        · exact .inr (List.mem_append_left _ (mem_visits_of_delivered hs hx (.inr hv)))
      · exact .inr (List.mem_append_left _ (mem_visits_of_delivered hs hx (.inl (List.mem_singleton.1 hv))))
    · exact clockKept_afterEvents events ⟨[], clock⟩ (clockKept_run event a hr)

end Decision

/-- An event whose time has four hundred digits. -/
def farOff : Value := .object [(.name "timestamp", .number (.int (10 ^ 400)))]

/-- The number of the held values. -/
def tally (held : List Value) : Except Failure Value := .ok (.nat held.length)

/-- The number of the values of a second. -/
def perSecond : Stage := .aggregate ⟨none, some 1000⟩ tally none

/-- What such an event makes the stage fail with. -/
def outOfRange : Failure := perSecond.failure 0 (.plain .overflow "int too large to convert to float")

theorem decision_fails_iff_far :
    [perSecond][0]? = some (.aggregate ⟨none, some 1000⟩ tally none) ∧ (∀ held, ∃ r, tally held = .ok r) ∧
      Window.Undecidable "timestamp" ⟨none, some 1000⟩ [farOff] ⟨[.int 0]⟩ := by
  have htally : ∀ held, ∃ r, tally held = .ok r := fun held => ⟨_, rfl⟩
  have herrors : ((run "timestamp" [perSecond] farOff).run ⟨[], ⟨[.int 0]⟩⟩).1.errors = [outOfRange] := by
    decide +kernel
  have hmem : outOfRange ∈ ((run "timestamp" [perSecond] farOff).run
      (afterEvents "timestamp" [perSecond] [] ⟨[], ⟨[.int 0]⟩⟩)).1.errors := by
    rw [afterEvents, List.foldl_nil, herrors]
    exact List.mem_singleton_self _
  obtain ⟨hfails, -⟩ := @decision_fails_iff "timestamp" [perSecond] 0 _ _ _ rfl htally ⟨[.int 0]⟩ [] farOff
  obtain ⟨x, hx, hundecidable⟩ := hfails.1 ⟨outOfRange, hmem, rfl⟩
  cases hx
  exact ⟨rfl, htally, hundecidable⟩

/-- A time out of range breaks off the decision: the event is held, and it is delivered all the same. -/
theorem decision_breaks_off :
    (∀ held, ∃ r, tally held = .ok r) ∧
      let o := (run "timestamp" [perSecond] farOff).run ⟨[], ⟨[.int 0]⟩⟩
      (∃ e ∈ o.1.errors, e.stageIndex? = some 0) ∧ o.1.delivered? = some farOff ∧ farOff ∈ o.2.buffer := by
  have houtcome :
      ((run "timestamp" [perSecond] farOff).run ⟨[], ⟨[.int 0]⟩⟩).1 = ⟨some farOff, false, [outOfRange]⟩ := by
    decide +kernel
  have hheld : ((run "timestamp" [perSecond] farOff).run ⟨[], ⟨[.int 0]⟩⟩).2.buffer = [farOff] := by decide +kernel
  refine ⟨fun held => ⟨_, rfl⟩, ⟨outOfRange, ?_, rfl⟩, ?_, ?_⟩
  · rw [houtcome]
    exact List.mem_singleton_self _
  · rw [houtcome]
    rfl
  · rw [hheld]
    exact List.mem_singleton_self _

end Chain

end EventPipeline
