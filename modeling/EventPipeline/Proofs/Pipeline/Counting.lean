import EventPipeline.Proofs.Pipeline.Plain
import Mathlib.Data.List.DropRight

/-!
# Windows of a fixed size

A chain with one aggregate stage whose window is closed by the number of its values (`CountingChain`).
An event may be lost in front of that stage, be held by it, or close the window; the results of the three
are `watch_lost`, `watch_held` and `watch_closed`. The windows of a list of values are `fullWindows`, which
grow by one when a value completes a window (`fullWindows_concat`).
-/

namespace EventPipeline

/-! ### Windows of a list -/

section Windows

variable {α : Type}

/-- The full windows of a list: window `k` begins at position `k * n`. -/
def fullWindows (n : ℕ) (xs : List α) : List (List α) :=
  (List.range (xs.length / n)).map fun k => (xs.drop (k * n)).take n

/-- A full window stays the same when a value is added. -/
theorem window_concat {n k : ℕ} {xs : List α} (x : α) (hk : k < xs.length / n) :
    ((xs ++ [x]).drop (k * n)).take n = (xs.drop (k * n)).take n := by
  have hle : k * n + n ≤ xs.length := by
    calc k * n + n
      _ = (k + 1) * n := (Nat.succ_mul k n).symm
      _ ≤ xs.length / n * n := Nat.mul_le_mul_right n hk
      _ ≤ xs.length := Nat.div_mul_le_self _ _
  rw [List.drop_append_of_le_length (by omega), List.take_append_of_le_length]
  rw [List.length_drop]
  omega

/-- **One more value completes a window or does not.** -/
theorem fullWindows_concat {n : ℕ} (hn : 0 < n) (xs : List α) (x : α) :
    fullWindows n (xs ++ [x]) =
      fullWindows n xs ++ if xs.length % n + 1 = n then [xs.rtake (xs.length % n) ++ [x]] else [] := by
  have hold : ((List.range (xs.length / n)).map fun k => ((xs ++ [x]).drop (k * n)).take n) = fullWindows n xs :=
    List.map_congr_left fun k hk => window_concat x (List.mem_range.1 hk)
  have hdm := Nat.div_add_mod xs.length n
  rw [fullWindows, List.length_append, List.length_singleton]
  split_ifs with h
  · have hlen : xs.length + 1 = n * (xs.length / n + 1) := by
      rw [Nat.mul_succ]
      omega
    have hdiv : (xs.length + 1) / n = xs.length / n + 1 := by
      rw [hlen, Nat.mul_div_cancel_left _ hn]
    have hlast : ((xs ++ [x]).drop (xs.length / n * n)).take n = xs.rtake (xs.length % n) ++ [x] := by
      have hstart : xs.length / n * n = xs.length - xs.length % n := by
        rw [Nat.mul_comm]
        omega
      rw [hstart, List.drop_append_of_le_length (by omega), List.rtake, List.take_of_length_le]
      rw [List.length_append, List.length_drop, List.length_singleton]
      omega
    rw [hdiv, List.range_succ, List.map_append, hold, List.map_singleton, hlast]
  · have hlt : xs.length % n + 1 < n := by
      have := Nat.mod_lt xs.length hn
      omega
    have hdiv : (xs.length + 1) / n = xs.length / n := by
      refine Nat.div_eq_of_lt_le ?_ ?_
      · rw [Nat.mul_comm]
        omega
      · rw [Nat.mul_comm, Nat.mul_succ]
        omega
    rw [hdiv, hold, List.append_nil]

/-- The number of values behind the last full window. -/
theorem succ_mod {n : ℕ} (hn : 0 < n) (m : ℕ) : (m + 1) % n = if m % n + 1 = n then 0 else m % n + 1 := by
  have hlt := Nat.mod_lt m hn
  rw [← Nat.mod_add_mod]
  split_ifs with h
  · rw [h, Nat.mod_self]
  · exact Nat.mod_eq_of_lt (by omega)

/-- The window that is reduced at the end: all that is held, if anything is. -/
def lastWindow : List α → List (List α)
  | [] => []
  | w => [w]

theorem length_rtake {n : ℕ} {xs : List α} (h : n ≤ xs.length) : (xs.rtake n).length = n := by
  rw [List.rtake, List.length_drop]
  omega

/-- A list ends with what it was put together with last. -/
theorem rdrop_and_rtake {xs ys zs : List α} (h : xs ++ ys = zs) :
    zs.rdrop ys.length = xs ∧ zs.rtake ys.length = ys := by
  subst h
  constructor
  · rw [List.rdrop, List.length_append, Nat.add_sub_cancel, List.take_left]
  · rw [List.rtake, List.length_append, Nat.add_sub_cancel, List.drop_left]

end Windows

/-! ### Taking a value into a counted window -/

/-- A value taken into a window that counts closes it, or is held. -/
theorem Accumulator.perform_accumulate_count (field : Text) (n : ℕ) (reduce : List Value → Except Failure Value)
    (v : Value) (a : Accumulator) :
    perform (accumulate field ⟨some n, none⟩ reduce v) a =
      if n ≤ a.buffer.length + 1 then
        match reduce (a.buffer.push v) with
        | .ok r => (.ok (some r), { a with buffer := [] })
        | .error f => (.error f, { a with buffer := a.buffer.push v })
      else (.ok none, { a with buffer := a.buffer.push v }) := by
  have hclose : perform (shouldClose field ⟨some n, none⟩) { a with buffer := a.buffer.push v } =
      (.ok (decide (n ≤ a.buffer.length + 1)), { a with buffer := a.buffer.push v }) := by
    rw [shouldClose, perform_bind_ok (perform_get _)]
    have hlen : (a.buffer.push v).length = a.buffer.length + 1 := by simp [Buffer.push]
    by_cases h : n ≤ a.buffer.length + 1
    · simp only [Window.isFull, hlen, h, decide_true, if_true]
      rfl
    · simp only [Window.isFull, hlen, h, decide_false, Bool.false_eq_true, if_false]
      rfl
  rw [accumulate, perform_bind_ok (perform_modify _ _), perform_bind_ok hclose]
  by_cases h : n ≤ a.buffer.length + 1
  · simp only [h, decide_true, if_true, reduceAll, bind_assoc]
    rw [perform_bind_ok (perform_get _)]
    dsimp only
    cases reduce (a.buffer.push v) <;> rfl
  · simp only [h, decide_false, Bool.false_eq_true, if_false]
    rfl

/-! ### Chains that count -/

/-- A chain whose only aggregate stage is closed by the number of its values. -/
structure CountingChain where
  /-- The stages in front. -/
  before : List Stage
  before_plain : ∀ s ∈ before, s.Plain
  /-- How many values a window has. -/
  size : ℕ
  size_pos : 0 < size
  /-- The reducer. -/
  reduce : List Value → Except Failure Value
  /-- The text of the reducer. -/
  source : Option Text
  /-- The stages behind. -/
  after : List Stage
  after_plain : ∀ s ∈ after, s.Plain

namespace CountingChain

variable (C : CountingChain)

/-- The aggregate stage. -/
def stage : Stage := .aggregate ⟨some C.size, none⟩ C.reduce C.source

/-- All stages. -/
def stages : List Stage := C.before ++ C.stage :: C.after

/-- The windows that close before the end, in a buffer with a capacity: all full ones, if there is room for
all values but the last one, and else none. -/
def closed (capacity : ℕ) (xs : List Value) : List (List Value) :=
  if C.size ≤ capacity + 1 then fullWindows C.size xs else []

/-- How many of the values are held at the end. -/
def held (capacity : ℕ) (xs : List Value) : ℕ :=
  if C.size ≤ capacity + 1 then xs.length % C.size else min capacity xs.length

/-- No stage that is plain aggregates. -/
theorem aggregates_of_plain {ss : List Stage} (hss : ∀ s ∈ ss, s.Plain) (n : ℕ) :
    ((ss.zipIdx n).map fun (s, i) => (i, s)).filter (fun (_, s) => s.kind == .aggregate) = [] := by
  rw [List.filter_eq_nil_iff]
  rintro ⟨i, s⟩ hm
  obtain ⟨⟨s', i'⟩, hz, heq⟩ := List.mem_map.1 hm
  obtain ⟨rfl, rfl⟩ := Prod.mk.inj heq
  have hmem := List.fst_mem_of_mem_zipIdx hz
  simpa [Stage.Plain] using hss _ hmem

/-- There is one aggregate stage to flush. -/
theorem aggregateStages_stages : Chain.aggregateStages C.stages = [(C.before.length, C.stage)] := by
  rw [Chain.aggregateStages, stages, List.zipIdx_append, List.map_append, List.filter_append,
    aggregates_of_plain C.before_plain, List.zipIdx_cons, List.map_cons, List.filter_cons_of_pos rfl,
    aggregates_of_plain C.after_plain, Nat.zero_add]
  rfl

variable {C} (field : Text) {event x : Value} {a : Accumulator}

/-- What the chain makes of a value that reaches the aggregate stage. -/
theorem watch_reaching (h : Chain.thread C.before event = .ok (some x)) :
    (Chain.watch field C.stages event).run (a, []) =
      StateT.run (do
        match ← Chain.watchingIntake field C.before.length ⟨some C.size, none⟩ C.reduce x with
        | .ok y => Chain.runWith (Chain.watchingIntake field) (C.before.length + 1) y C.after
        | .error f =>
          return (← Chain.runWith (Chain.watchingIntake field) (C.before.length + 1) (some x) C.after).noting
            (C.stage.failure C.before.length f)) (a, []) := by
  have hrun := Chain.runWith_aggregate (Chain.watchingIntake field) (Chain.ne_null_of_thread h) C.before.length
    ⟨some C.size, none⟩ C.reduce C.source C.after
  rw [Chain.watch, stages, Chain.runWith_thread_some _ C.before_plain h, stage, Nat.zero_add]
  exact congrArg (StateT.run · (a, [])) hrun

/-- **A lost event** leaves everything as it was. -/
theorem watch_lost (h : Chain.thread C.before event = .ok none) :
    ∃ o : Outcome, o.delivered? = none ∧ o.errors = [] ∧
      (Chain.watch field C.stages event).run (a, []) = (o, a, []) := by
  obtain ⟨o, hd, he, hrun⟩ := Chain.runWith_thread_none (Chain.watchingIntake field) C.before_plain h 0
    (C.stage :: C.after)
  exact ⟨o, hd, he, by rw [Chain.watch, stages, hrun]; rfl⟩

/-- **A held value** joins the others. -/
theorem watch_held (h : Chain.thread C.before event = .ok (some x)) (hl : a.buffer.length + 1 < C.size) :
    (Chain.watch field C.stages event).run (a, []) =
      (⟨none, false, []⟩, { a with buffer := a.buffer.push x }, [⟨C.before.length, x, a.buffer, .ok none⟩]) := by
  rw [watch_reaching field h, StateT.run_bind]
  have hi : (Chain.watchingIntake field C.before.length ⟨some C.size, none⟩ C.reduce x).run (a, []) =
      (.ok none, { a with buffer := a.buffer.push x }, [⟨C.before.length, x, a.buffer, .ok none⟩]) := by
    rw [Chain.run_watchingIntake, Accumulator.perform_accumulate_count, if_neg (by omega), List.nil_append]
  have hrest := Chain.runWith_of_absent (Chain.watchingIntake field) (v := none) (.inl rfl) (C.before.length + 1) C.after
  rw [hi]
  exact congrArg (StateT.run · _) hrest

/-- **A value that closes the window** sends the reduction on to the stages behind. -/
theorem watch_closed {r : Value} {y : Option Value} (h : Chain.thread C.before event = .ok (some x))
    (hl : C.size ≤ a.buffer.length + 1) (hr : C.reduce (a.buffer.push x) = .ok r)
    (hy : Chain.thread C.after r = .ok y) :
    ∃ o : Outcome, o.delivered? = y ∧ o.errors = [] ∧
      (Chain.watch field C.stages event).run (a, []) =
        (o, { a with buffer := [] }, [⟨C.before.length, x, a.buffer, .ok (some r)⟩]) := by
  obtain ⟨o, hd, he, hrun⟩ := Chain.runWith_thread (Chain.watchingIntake field) C.after_plain hy (C.before.length + 1)
  refine ⟨o, hd, he, ?_⟩
  rw [watch_reaching field h, StateT.run_bind]
  have hi : (Chain.watchingIntake field C.before.length ⟨some C.size, none⟩ C.reduce x).run (a, []) =
      (.ok (some r), { a with buffer := [] }, [⟨C.before.length, x, a.buffer, .ok (some r)⟩]) := by
    rw [Chain.run_watchingIntake, Accumulator.perform_accumulate_count, if_pos hl, hr, List.nil_append]
  rw [hi]
  exact congrArg (StateT.run · _) hrun

end CountingChain

end EventPipeline
