import EventPipeline.Pipeline.Accumulation
import EventPipeline.Proofs.Fallible

/-!
# When windows close

A window closes on the values held by their number, or else by the age of the oldest one. Only the second
question needs the clock, and it is asked only of a window that has a span and is not full, while the oldest
value carries a time (`Window.Asks`). The three lemmas on `shouldClose` say what comes of it when the window
is full, when it asks for the time, and in every other case; `shouldClose_cases` is the three of them together.
-/

namespace EventPipeline

/-! ### Times and readings -/

/-- The time that a value carries: the number in a field of an object. -/
def Value.time? (field : Text) : Value → Option Number
  | .object fields =>
    match Table.find? fields (.name field) with
    | some (.number n) => some n
    | _ => none
  | _ => none

/-- A reading leaves no other readings to come. -/
theorem Clock.readings_read (c : Clock) : c.read.2.readings ⊆ c.readings := by
  obtain ⟨_ | ⟨r, _ | ⟨s, later⟩⟩⟩ := c
  · exact List.Subset.refl _
  · exact List.Subset.refl _
  · exact List.subset_cons_self _ _

/-- A reading is one of those to come, or zero. -/
theorem Clock.read_mem (c : Clock) : c.read.1 ∈ c.readings ∨ c.read.1 = .float (Binary64.zero false) := by
  obtain ⟨_ | ⟨r, _ | ⟨s, later⟩⟩⟩ := c
  · exact .inr rfl
  · exact .inl List.mem_cons_self
  · exact .inl List.mem_cons_self

namespace Window

/-- The number of held values closes the window. -/
def Full (w : Window) (held : List Value) : Prop := ∃ n ∈ w.count, n ≤ held.length

theorem isFull_iff (w : Window) (held : List Value) : w.isFull held.length = true ↔ w.Full held := by
  unfold isFull Full
  cases w.count <;> simp

/-- The window depends on the clock: it has a span, too few values are held to close it, and the oldest one carries
a time. -/
def Asks (field : Text) (w : Window) (held : List Value) (span : Nat) (time : Number) : Prop :=
  ¬ w.Full held ∧ w.span = some span ∧ ∃ oldest, held.head? = some oldest ∧ oldest.time? field = some time

theorem Asks.unique {field : Text} {w : Window} {held : List Value} {m n : Nat} {s t : Number}
    (h : w.Asks field held m s) (h' : w.Asks field held n t) : m = n ∧ s = t := by
  obtain ⟨-, hspan, v, hv, htime⟩ := h
  obtain ⟨-, hspan', v', hv', htime'⟩ := h'
  cases hv.symm.trans hv'
  exact ⟨Option.some.inj (hspan.symm.trans hspan'), Option.some.inj (htime.symm.trans htime')⟩

end Window

/-- The double precision difference of a reading and a time reaches a span. -/
def Aged (span : Nat) (time reading : Number) : Prop :=
  ∃ t r, time.toFloat = .ok t ∧ reading.toFloat = .ok r ∧ Number.lessEq (.int span) (.float (r.sub t)) = true

namespace Accumulator

/-- The oldest value is looked up in the field. -/
theorem oldestTimestamp?_eq (field : Text) (b : Buffer) :
    oldestTimestamp? field b = b.head?.bind (Value.time? field) := by
  unfold oldestTimestamp? Buffer.front?
  cases b with
  | nil => rfl
  | cons v rest => cases v <;> rfl

/-- The age is measured in double precision. -/
theorem spanReached_eq (span : Nat) (oldest : Binary64) (reading : Number) :
    spanReached span oldest reading =
      match reading.toFloat with
      | .ok r => .ok (Number.lessEq (.int span) (.float (r.sub oldest)))
      | .error e => .error e.toFailure := by
  have hsub : reading.sub (.float oldest) = reading.toFloat >>= fun r => pure (.float (r.sub oldest)) := by
    cases reading <;> rfl
  rw [spanReached, hsub]
  cases reading.toFloat <;> rfl

variable {field : Text} {w : Window} {a : Accumulator}

theorem perform_shouldClose_of_full (h : w.Full a.buffer) : perform (shouldClose field w) a = (.ok true, a) := by
  rw [shouldClose, perform_bind_ok (perform_get a), if_pos ((w.isFull_iff _).2 h)]
  rfl

/-- **A window that depends on the clock** takes one reading, unless the time of the oldest value has no double
precision number. -/
theorem perform_shouldClose_of_asks {span : Nat} {time : Number} (h : w.Asks field a.buffer span time) :
    perform (shouldClose field w) a =
      match time.toFloat with
      | .error e => (.error e.toFailure, a)
      | .ok oldest => (spanReached span oldest a.clock.read.1, { a with clock := a.clock.read.2 }) := by
  obtain ⟨hfull, hspan, oldest, holdest, htime⟩ := h
  have htime : oldestTimestamp? field a.buffer = some time := by
    rw [oldestTimestamp?_eq, holdest]
    exact htime
  rw [shouldClose, perform_bind_ok (perform_get a), if_neg (mt (w.isFull_iff _).1 hfull), hspan, htime]
  dsimp only
  cases time.toFloat with
  | error e => rfl
  | ok t =>
    dsimp only
    rw [perform_bind_ok (perform_set _ a)]
    cases spanReached span t a.clock.read.1 <;> rfl

/-- Any other window stays open. -/
theorem perform_shouldClose_of_not_asks (hfull : ¬ w.Full a.buffer)
    (h : ∀ span time, ¬ w.Asks field a.buffer span time) :
    perform (shouldClose field w) a = (.ok false, a) := by
  rw [shouldClose, perform_bind_ok (perform_get a), if_neg (mt (w.isFull_iff _).1 hfull), oldestTimestamp?_eq]
  cases hspan : w.span with
  | none => rfl
  | some span =>
    cases htime : a.buffer.head?.bind (Value.time? field) with
    | none => rfl
    | some time =>
      obtain ⟨oldest, holdest, htime⟩ := Option.bind_eq_some_iff.1 htime
      exact absurd ⟨hfull, hspan, oldest, holdest, htime⟩ (h span time)

/-- **The three ways to decide** whether a window closes. -/
theorem shouldClose_cases (field : Text) (w : Window) (a : Accumulator) :
    (w.Full a.buffer ∧ perform (shouldClose field w) a = (.ok true, a)) ∨
    (∃ span time, w.Asks field a.buffer span time ∧
      perform (shouldClose field w) a =
        match time.toFloat with
        | .error e => (.error e.toFailure, a)
        | .ok oldest => (spanReached span oldest a.clock.read.1, { a with clock := a.clock.read.2 })) ∨
    (¬ w.Full a.buffer ∧ (∀ span time, ¬ w.Asks field a.buffer span time) ∧
      perform (shouldClose field w) a = (.ok false, a)) := by
  by_cases hfull : w.Full a.buffer
  · exact .inl ⟨hfull, perform_shouldClose_of_full hfull⟩
  by_cases hasks : ∃ span time, w.Asks field a.buffer span time
  · obtain ⟨span, time, hasks⟩ := hasks
    exact .inr (.inl ⟨span, time, hasks, perform_shouldClose_of_asks hasks⟩)
  · have hnone : ∀ span time, ¬ w.Asks field a.buffer span time := fun span time h => hasks ⟨span, time, h⟩
    exact .inr (.inr ⟨hfull, hnone, perform_shouldClose_of_not_asks hfull hnone⟩)

end Accumulator

end EventPipeline
