import EventPipeline.Proofs.Number.Range
import EventPipeline.Proofs.Pipeline.Closing
import Mathlib.Data.List.Induction

/-!
# Segments

Values that are taken in one after the other, with nothing else done to the buffer, are cut into segments: a
segment begins where the one in front of it was closed, and ends with the first push that closes the window on
its values. What is left at the end is held. Each reduction is that of one segment.

What a push does depends on the values since the last closing push and on the next reading of the clock
(`Accumulator.decides`), so that a segment can be told from its own pushes: `Window.Closed` says of pushes that the
last one is the first to close the window, and `Window.Open` that none does. The run is cut push by push, from
its end (`Accumulator.pushAll_segments`).
-/

namespace EventPipeline

/-! ### Readings in a row -/

/-- The next readings of a clock, and the clock after them. -/
def Clock.reads : ℕ → Clock → List Number × Clock
  | 0, c => ([], c)
  | n + 1, c => (c.read.1 :: (reads n c.read.2).1, (reads n c.read.2).2)

theorem Clock.reads_succ (n : ℕ) (c : Clock) :
    c.reads (n + 1) = ((c.reads n).1 ++ [(c.reads n).2.read.1], (c.reads n).2.read.2) := by
  induction n generalizing c with
  | zero => rfl
  | succ n ih => rw [reads, ih, reads, List.cons_append]

/-- The clock after a reading that was taken or not. -/
def Clock.after (c : Clock) (reading : Option Number) : Clock := if reading.isSome then c.read.2 else c

/-- Readings are in range if those to come are. -/
theorem Clock.inRange_reads {c : Clock} (hc : ∀ r ∈ c.readings, r.InRange) (n : ℕ) :
    ∀ r ∈ (c.reads n).1, r.InRange := by
  induction n generalizing c with
  | zero => exact List.forall_mem_nil _
  | succ n ih =>
    refine List.forall_mem_cons.2 ⟨?_, ih fun r hr => hc r (c.readings_read hr)⟩
    rcases c.read_mem with h | h
    · exact hc _ h
    · rw [h]
      trivial

/-! ### Pushes -/

/-- A value that was pushed, and the reading of the clock that was taken then. -/
structure Push where
  /-- The value. -/
  value : Value
  /-- The reading, if the clock was read. -/
  reading : Option Number

theorem Push.map_value_concat (before : List Push) (p : Push) :
    (before ++ [p]).map Push.value = before.map Push.value ++ [p.value] := List.map_append

namespace Window

variable (field : Text) (w : Window)

/-- The clock is read just if the window asks for the time. -/
def Reads (held : List Value) (reading : Option Number) : Prop :=
  reading.isSome ↔ ∃ span time, w.Asks field held span time

/-- The window closes: by the number of the held values, or by the age of the oldest one. -/
def Closes (held : List Value) (reading : Option Number) : Prop :=
  w.Full held ∨ ∃ span time r, w.Asks field held span time ∧ reading = some r ∧ Aged span time r

/-- None of the pushes closes the window. -/
def Open (pushes : List Push) : Prop :=
  ∀ before p, before ++ [p] <+: pushes →
    w.Reads field ((before ++ [p]).map Push.value) p.reading ∧
      ¬ w.Closes field ((before ++ [p]).map Push.value) p.reading

/-- The last of the pushes closes the window, and it is the first one to do so. -/
def Closed (pushes : List Push) : Prop :=
  ∃ before p, pushes = before ++ [p] ∧ w.Open field before ∧ w.Reads field (pushes.map Push.value) p.reading ∧
    w.Closes field (pushes.map Push.value) p.reading

variable {field w}

theorem open_nil : w.Open field [] := by
  intro before p h
  exact absurd (List.prefix_nil.1 h) (List.append_ne_nil_of_right_ne_nil _ (List.cons_ne_nil _ _))

/-- One more push that does not close the window. -/
theorem Open.push {before : List Push} {p : Push} (h : w.Open field before)
    (hreads : w.Reads field (before.map Push.value ++ [p.value]) p.reading)
    (hstays : ¬ w.Closes field (before.map Push.value ++ [p.value]) p.reading) : w.Open field (before ++ [p]) := by
  intro first q hq
  rcases List.prefix_concat_iff.1 hq with heq | hq
  · obtain ⟨rfl, hlast⟩ := List.append_inj' heq rfl
    obtain rfl := List.singleton_inj.1 hlast
    rw [Push.map_value_concat]
    exact ⟨hreads, hstays⟩
  · exact h first q hq

end Window

namespace Accumulator

/-- What comes of a push that closes nothing: nothing, or the failure of a reading without a double precision
number. -/
def withheld (reading : Option Number) : Except Failure (Option Value) :=
  match reading.map Number.toFloat with
  | some (.error e) => .error e.toFailure
  | _ => .ok none

theorem withheld_of_inRange {reading : Option Number} (h : ∀ r ∈ reading, r.InRange) : withheld reading = .ok none := by
  cases reading with
  | none => rfl
  | some r =>
    obtain ⟨x, hx⟩ := Number.toFloat_ok_iff.2 (h r rfl)
    rw [withheld, Option.map_some, hx]

variable {field : Text} {w : Window} {reduce : List Value → Except Failure Value}

/-- **Whether a window closes** is decided by the held values and the next reading, as long as the times of the
values are in range. -/
theorem decides {held : List Value} (htimes : ∀ v ∈ held, ∀ time ∈ v.time? field, time.InRange) (clock : Clock) :
    ∃ reading, w.Reads field held reading ∧ (∀ r ∈ reading, r = clock.read.1) ∧
      ((w.Closes field held reading ∧
          perform (shouldClose field w) ⟨held, clock⟩ = (.ok true, ⟨held, clock.after reading⟩)) ∨
        (¬ w.Closes field held reading ∧
          perform (shouldClose field w) ⟨held, clock⟩ =
            ((withheld reading).map fun _ => false, ⟨held, clock.after reading⟩))) := by
  rcases shouldClose_cases field w ⟨held, clock⟩ with ⟨hfull, h⟩ | ⟨span, time, hasks, h⟩ | ⟨hfull, hnone, h⟩
  · refine ⟨none, ?_, fun r hr => (nomatch hr), .inl ⟨.inl hfull, h⟩⟩
    exact iff_of_false Bool.false_ne_true fun ⟨_, _, hasks⟩ => hasks.1 hfull
  · obtain ⟨oldest, holdest, htime⟩ := hasks.2.2
    obtain ⟨t, ht⟩ := Number.toFloat_ok_iff.2 (htimes oldest (List.mem_of_mem_head? holdest) time htime)
    refine ⟨some clock.read.1, ?_, fun r hr => (Option.some.inj hr).symm, ?_⟩
    · exact iff_of_true rfl ⟨span, time, hasks⟩
    have hcloses : w.Closes field held (some clock.read.1) ↔ Aged span time clock.read.1 := by
      refine ⟨?_, fun haged => .inr ⟨span, time, _, hasks, rfl, haged⟩⟩
      rintro (hfull | ⟨span', time', r, hasks', hr, haged⟩)
      · exact absurd hfull hasks.1
      · cases hr
        obtain ⟨rfl, rfl⟩ := hasks.unique hasks'
        exact haged
    rw [hcloses, h, ht, withheld, Option.map_some]
    dsimp only
    rw [spanReached_eq]
    cases hr : clock.read.1.toFloat with
    | error e => exact .inr ⟨fun ⟨_, _, _, hr', _⟩ => (nomatch hr.symm.trans hr'), rfl⟩
    | ok r =>
      have haged : Aged span time clock.read.1 ↔ Number.lessEq (.int span) (.float (r.sub t)) = true := by
        simp [Aged, ht, hr]
      rw [haged]
      dsimp only
      cases Number.lessEq (.int span) (.float (r.sub t)) with
      | false => exact .inr ⟨Bool.false_ne_true, rfl⟩
      | true => exact .inl ⟨rfl, rfl⟩
  · refine ⟨none, ?_, fun r hr => (nomatch hr), .inr ⟨?_, h⟩⟩
    · exact iff_of_false Bool.false_ne_true fun ⟨span, time, hasks⟩ => hnone span time hasks
    · rintro (hcloses | ⟨_, _, _, _, hr, _⟩)
      · exact hfull hcloses
      · cases hr

/-- A window that stays open leaves the value held. -/
theorem perform_accumulate_of_stays {held : List Value} {v : Value} {clock : Clock} {t : Accumulator}
    {reading : Option Number}
    (h : perform (shouldClose field w) ⟨held ++ [v], clock⟩ = ((withheld reading).map fun _ => false, t)) :
    perform (accumulate field w reduce v) ⟨held, clock⟩ = (withheld reading, t) := by
  have h : perform (shouldClose field w) ⟨Buffer.push held v, clock⟩ = _ := h
  rw [accumulate, perform_bind_ok (perform_modify _ _), perform_bind, h]
  unfold withheld
  rcases reading.map Number.toFloat with _ | e | _ <;> rfl

/-- A window that closes is reduced, and nothing is left. -/
theorem perform_accumulate_of_closes {held : List Value} {v r : Value} {clock : Clock} {t : Accumulator}
    (h : perform (shouldClose field w) ⟨held ++ [v], clock⟩ = (.ok true, t)) (hr : reduce t.buffer = .ok r) :
    perform (accumulate field w reduce v) ⟨held, clock⟩ = (.ok (some r), { t with buffer := [] }) := by
  have h : perform (shouldClose field w) ⟨Buffer.push held v, clock⟩ = _ := h
  rw [accumulate, perform_bind_ok (perform_modify _ _), perform_bind_ok h, if_pos rfl, reduceAll, bind_assoc,
    perform_bind_ok (perform_get t), hr]
  rfl

/-! ### Pushes in a row -/

/-- Takes values in one after the other: what comes of each push, and what is left behind. -/
def pushAll (field : Text) (w : Window) (reduce : List Value → Except Failure Value) :
    List Value → Accumulator → List (Except Failure (Option Value)) × Accumulator
  | [], a => ([], a)
  | v :: vs, a =>
    let (r, b) := perform (accumulate field w reduce v) a
    let (rs, c) := pushAll field w reduce vs b
    (r :: rs, c)

theorem pushAll_concat (vs : List Value) (v : Value) (a : Accumulator) :
    pushAll field w reduce (vs ++ [v]) a =
      ((pushAll field w reduce vs a).1 ++ [(perform (accumulate field w reduce v) (pushAll field w reduce vs a).2).1],
        (perform (accumulate field w reduce v) (pushAll field w reduce vs a).2).2) := by
  induction vs generalizing a with
  | nil => rfl
  | cons u vs ih => simp only [List.cons_append, pushAll, ih]

/-- What comes of the pushes of a segment: the reduction of its values for the last one. -/
def resultsOf (reduce : List Value → Except Failure Value) (segment : List Push) :
    List (Except Failure (Option Value)) :=
  segment.dropLast.map (fun p => withheld p.reading) ++ [(reduce (segment.map Push.value)).map some]

/-- The readings taken by pushes are the next ones of a clock, and leave another one behind. -/
def Follows (clock : Clock) (pushes : List Push) (later : Clock) : Prop :=
  clock.reads (pushes.filterMap Push.reading).length = (pushes.filterMap Push.reading, later)

theorem Follows.push {clock later : Clock} {pushes : List Push} {p : Push} (h : Follows clock pushes later)
    (hp : ∀ r ∈ p.reading, r = later.read.1) : Follows clock (pushes ++ [p]) (later.after p.reading) := by
  unfold Follows at h ⊢
  rw [List.filterMap_append]
  cases hr : p.reading with
  | none => simpa [hr, Clock.after] using h
  | some r =>
    rw [List.filterMap_cons_some hr, List.filterMap_nil, List.length_append, List.length_singleton, Clock.reads_succ, h,
      ← hp r hr]
    rfl

/-- The pushes of values, cut into segments and a rest that is held. -/
structure Cut (field : Text) (w : Window) (vs : List Value) (clock : Clock) (segments : List (List Push))
    (rest : List Push) (later : Clock) : Prop where
  /-- The segments and the rest are the values in their order. -/
  values : (segments.flatten ++ rest).map Push.value = vs
  /-- Each segment ends with the first push that closes the window on it. -/
  closed : ∀ segment ∈ segments, w.Closed field segment
  /-- The rest does not close the window. -/
  stays : w.Open field rest
  /-- The clock gives one reading after the other. -/
  readings : Follows clock (segments.flatten ++ rest) later
  /-- The reducer is given the segments and nothing else, and the rest is left. -/
  results : ∀ reduce : List Value → Except Failure Value,
    (∀ segment ∈ segments, ∃ r, reduce (segment.map Push.value) = .ok r) →
      pushAll field w reduce vs ⟨[], clock⟩ =
        (segments.flatMap (resultsOf reduce) ++ rest.map (fun p => withheld p.reading), ⟨rest.map Push.value, later⟩)

namespace Cut

variable {vs : List Value} {clock later : Clock} {segments : List (List Push)} {rest : List Push}

theorem nil : Cut field w [] clock [] [] clock where
  values := rfl
  closed := List.forall_mem_nil _
  stays := Window.open_nil
  readings := rfl
  results _ _ := rfl

/-- A push that does not close the window makes the rest longer. -/
theorem stay (h : Cut field w vs clock segments rest later) (p : Push)
    (hp : ∀ r ∈ p.reading, r = later.read.1) (hreads : w.Reads field (rest.map Push.value ++ [p.value]) p.reading)
    (hstays : ¬ w.Closes field (rest.map Push.value ++ [p.value]) p.reading)
    (hclose : perform (shouldClose field w) ⟨rest.map Push.value ++ [p.value], later⟩ =
      ((withheld p.reading).map fun _ => false, ⟨rest.map Push.value ++ [p.value], later.after p.reading⟩)) :
    Cut field w (vs ++ [p.value]) clock segments (rest ++ [p]) (later.after p.reading) where
  values := by rw [← List.append_assoc, List.map_append, h.values, List.map_singleton]
  closed := h.closed
  stays := h.stays.push hreads hstays
  readings := by
    rw [← List.append_assoc]
    exact h.readings.push hp
  results reduce hr := by
    rw [pushAll_concat, h.results reduce hr, perform_accumulate_of_stays hclose, List.append_assoc,
      Push.map_value_concat, List.map_append]
    rfl

/-- A push that closes the window makes a segment of the rest. -/
theorem close (h : Cut field w vs clock segments rest later) (p : Push)
    (hp : ∀ r ∈ p.reading, r = later.read.1) (hreads : w.Reads field (rest.map Push.value ++ [p.value]) p.reading)
    (hcloses : w.Closes field (rest.map Push.value ++ [p.value]) p.reading)
    (hclose : perform (shouldClose field w) ⟨rest.map Push.value ++ [p.value], later⟩ =
      (.ok true, ⟨rest.map Push.value ++ [p.value], later.after p.reading⟩)) :
    Cut field w (vs ++ [p.value]) clock (segments ++ [rest ++ [p]]) [] (later.after p.reading) where
  values := by
    rw [List.append_nil, List.flatten_append, List.flatten_singleton, ← List.append_assoc, List.map_append, h.values,
      List.map_singleton]
  closed := by
    rw [List.forall_mem_append, List.forall_mem_singleton]
    rw [← Push.map_value_concat] at hreads hcloses
    exact ⟨h.closed, rest, p, rfl, h.stays, hreads, hcloses⟩
  stays := Window.open_nil
  readings := by
    rw [List.append_nil, List.flatten_append, List.flatten_singleton, ← List.append_assoc]
    exact h.readings.push hp
  results reduce hr := by
    rw [List.forall_mem_append, List.forall_mem_singleton] at hr
    obtain ⟨hr, r, hlast⟩ := hr
    rw [Push.map_value_concat] at hlast
    rw [pushAll_concat, h.results reduce hr, perform_accumulate_of_closes hclose hlast, List.flatMap_append,
      List.flatMap_singleton, resultsOf, List.dropLast_concat, Push.map_value_concat, hlast, List.append_assoc]
    simp [Except.map]

end Cut

/-- **Values are cut greedily.** Pushed onto an empty buffer one after the other, values whose times are in range
are cut into segments that end with the first push to close the window, and a rest that does not close it. The
reducer is given the segments and nothing else, and each push comes to the reduction of its segment if it ends
one, and to nothing if it does not, unless the clock gave a reading out of range. -/
theorem pushAll_segments (field : Text) (w : Window) (clock : Clock) (vs : List Value)
    (htimes : ∀ v ∈ vs, ∀ time ∈ v.time? field, time.InRange) :
    ∃ segments rest later, Cut field w vs clock segments rest later ∧
      ((∀ r ∈ clock.readings, r.InRange) → ∀ p ∈ segments.flatten ++ rest, withheld p.reading = .ok none) := by
  have hcut : ∃ segments rest later, Cut field w vs clock segments rest later := by
    induction vs using List.reverseRecOn with
    | nil => exact ⟨[], [], clock, .nil⟩
    | append_singleton vs v ih =>
      obtain ⟨segments, rest, later, h⟩ := ih fun u hu => htimes u (List.mem_append_left _ hu)
      have hrest : ∀ u ∈ rest.map Push.value ++ [v], ∀ time ∈ u.time? field, time.InRange := by
        refine fun u hu => htimes u (List.mem_append.2 ((List.mem_append.1 hu).imp_left fun hu => ?_))
        rw [← h.values, List.map_append]
        exact List.mem_append_right _ hu
      obtain ⟨reading, hreads, hreading, hdecided⟩ := decides hrest later
      rcases hdecided with ⟨hcloses, hclose⟩ | ⟨hstays, hclose⟩
      · exact ⟨_, _, _, h.close ⟨v, reading⟩ hreading hreads hcloses hclose⟩
      · exact ⟨_, _, _, h.stay ⟨v, reading⟩ hreading hreads hstays hclose⟩
  obtain ⟨segments, rest, later, h⟩ := hcut
  refine ⟨segments, rest, later, h, fun hclock p hp => withheld_of_inRange fun r hr => ?_⟩
  have hmem : r ∈ (segments.flatten ++ rest).filterMap Push.reading := List.mem_filterMap.2 ⟨p, hp, hr⟩
  refine Clock.inRange_reads hclock ((segments.flatten ++ rest).filterMap Push.reading).length r ?_
  rwa [h.readings]

/-- An event at time zero. -/
def atZero : Value := .object [(.name "timestamp", .number (.float (Binary64.zero false)))]

/-- Two events in one second, and one that carries no time. -/
theorem pushAll_segments_second :
    (∀ v ∈ [atZero, atZero, .null], ∀ time ∈ v.time? "timestamp", time.InRange) ∧
      ∃ segments rest later,
        Cut "timestamp" ⟨some 3, some 1000⟩ [atZero, atZero, .null] ⟨[.int 999, .int 1000]⟩ segments rest later := by
  have htimes : ∀ v ∈ [atZero, atZero, .null], ∀ time ∈ v.time? "timestamp", time.InRange := by
    intro v hv time htime
    rcases List.mem_cons.1 hv with rfl | hv
    · cases htime
      trivial
    rcases List.mem_cons.1 hv with rfl | hv
    · cases htime
      trivial
    · cases List.mem_singleton.1 hv
      cases htime
  obtain ⟨segments, rest, later, h, -⟩ := pushAll_segments "timestamp" ⟨some 3, some 1000⟩ ⟨[.int 999, .int 1000]⟩ _
    htimes
  exact ⟨htimes, segments, rest, later, h⟩

example : pushAll "timestamp" ⟨some 3, some 1000⟩ (fun held => .ok (.nat held.length)) [atZero, atZero, .null]
    ⟨[], ⟨[.int 999, .int 1000]⟩⟩ =
      ([.ok none, .ok (some (.nat 2)), .ok none], ⟨[.null], ⟨[.int 1000]⟩⟩) := by decide +kernel

end Accumulator

end EventPipeline
