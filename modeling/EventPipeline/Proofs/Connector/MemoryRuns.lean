import EventPipeline.Proofs.Connector.SourceContract
import Mathlib

/-!
# The runs of a memory source

A memory source counts an event as sent before it sends it, and all its runs count together. So whatever cuts a run —
a stop, a subscriber that halts the source or one that fails on an event — the next run goes on behind the last event
that was sent, and the end is announced by the run that finds no event left (`Progressed`).

A run that nothing cuts works off what is outstanding: each move of a loop sends the next of it, or brings the loop
nearer to that (`Underway.moves`). So it makes only so many moves, and after the last one nothing is outstanding
(`delivers_once`). A rest that fails ends a run early, and what an earlier run has left may send events in place of the
run (`uncut_runs_fall_short`).
-/

namespace EventPipeline

open Relation (ReflTransGen)

/-- The event that a signal passes on. -/
def SourceSignal.value? : SourceSignal → Option Value
  | .data v => some v
  | _ => none

namespace SourceLife

/-! ### Subscribers that fail -/

section Turns

variable {σ : Type} [Feed σ]

/-- The loop of the latest run sends something on which a subscriber fails. The failure is sent as an error, and the
loop is over. -/
def refuse (files : FileTree) (f : Failure) (l : SourceLife σ) : SourceLife σ :=
  let m := l.move files
  { m with
    source := m.source.abandon
    sent := m.sent ++ [(l.runs, .error f)] }

/-- The same happens to the loop of an earlier run, which stands between others. -/
def refuseStray (files : FileTree) (before : List (Nat × Progress)) (n : Nat) (p : Progress)
    (after : List (Nat × Progress)) (f : Failure) (l : SourceLife σ) : SourceLife σ :=
  let m := l.moveStray files before n p after
  { m with
    source := { m.source with running := false, strays := (before ++ after).map Prod.snd }
    strays := before ++ after
    sent := m.sent ++ [(n, .error f)] }

/-- One step in the life of a source whose subscribers may fail on an event. -/
inductive Turn (files : FileTree) : SourceLife σ → SourceLife σ → Prop where
  /-- No subscriber fails. -/
  | step {l l'} (h : Step files l l') : Turn files l l'
  /-- A subscriber fails on an event of the latest run. -/
  | refuse {l v} (h : (l.source.move files).1 = some (.data v)) (f) : Turn files l (l.refuse files f)
  /-- A subscriber fails on an event of an earlier run. -/
  | refuseStray {l before n p after v} (h : l.strays = before ++ (n, p) :: after)
      (hv : (l.source.moveLoop files p).1 = some (.data v)) (f) : Turn files l (l.refuseStray files before n p after f)

/-- A loop makes a move, and no subscriber fails. -/
inductive Moves (files : FileTree) : SourceLife σ → SourceLife σ → Prop where
  /-- The loop of the latest run. -/
  | latest {l} (h : l.source.loop ≠ none) : Moves files l (l.move files)
  /-- The loop of an earlier run. -/
  | stray {l before n p after} (h : l.strays = before ++ (n, p) :: after) :
      Moves files l (l.moveStray files before n p after)

/-- So many moves of loops, and nothing else. -/
inductive Goes (files : FileTree) : Nat → SourceLife σ → SourceLife σ → Prop where
  | none (l) : Goes files 0 l l
  | more {n l l' l''} : Goes files n l l' → Moves files l' l'' → Goes files (n + 1) l l''

/-- The loop of the latest run makes so many moves. -/
theorem goes_move {files : FileTree} {l : SourceLife σ} {n : Nat}
    (h : ∀ k < n, ((move files)^[k] l).source.loop ≠ none) : Goes files n l ((move files)^[n] l) := by
  induction n with
  | zero => exact .none l
  | succ n ih =>
    rw [Function.iterate_succ_apply']
    exact .more (ih fun k hk => h k (Nat.lt_succ_of_lt hk)) (.latest (h n (Nat.lt_succ_self n)))

end Turns

/-! ### What a move of a loop comes to -/

/-- What a move of a loop of a memory source comes to: the signal, where the loop stands then, and the source. -/
inductive MemoryMove (s : Source MemorySource) : Progress → Option SourceSignal → Option Progress →
    Source MemorySource → Prop where
  /-- A rest is over. -/
  | rests {rest} : MemoryMove s (.resting rest) none (some .head) s
  /-- A rest fails. -/
  | fails {rest f} (h : restOf s.feed.interval = .error f) :
      MemoryMove s (.resting rest) (some (.error f)) none { s with running := false }
  /-- The next event is sent. -/
  | sends {p v} (running : s.running = true) (h : s.feed.events[s.feed.index]? = some v) :
      MemoryMove s p (s.sendData v) (some (.resting none))
        { s with feed := { s.feed with index := s.feed.index + 1 } }
  /-- There is no event left, and the end is announced. -/
  | ends {p} (running : s.running = true) (h : s.feed.events.length ≤ s.feed.index) :
      MemoryMove s p s.sendEnd.1 none { s with running := false, ended := true }
  /-- The source no longer runs. -/
  | leaves {p} (running : s.running = false) : MemoryMove s p none none s

theorem memoryMove_head (s : Source MemorySource) {p : Progress} (hp : ∀ rest, p ≠ .resting rest) (files : FileTree) :
    MemoryMove s p (s.moveLoop files p).1 (s.moveLoop files p).2.2.1 (s.moveLoop files p).2.2.2 := by
  have hadvance : Feed.advance files s.running p s.feed = s.feed.advance s.running .head := by
    cases p with
    | resting rest => exact absurd rfl (hp rest)
    | _ => rfl
  cases hrunning : s.running with
  | false =>
    have hleave : s.feed.advance s.running .head = ⟨.leave, s.feed, .head⟩ := by simp [MemorySource.advance, hrunning]
    simp only [Source.moveLoop, hadvance, hleave, ← hrunning]
    exact .leaves hrunning
  | true =>
    cases hv : s.feed.events[s.feed.index]? with
    | some v =>
      have hdata : s.feed.advance s.running .head =
          ⟨.data v, { s.feed with index := s.feed.index + 1 }, .resting none⟩ := by
        simp [MemorySource.advance, hrunning, hv]
      simp only [Source.moveLoop, hadvance, hdata]
      exact .sends hrunning hv
    | none =>
      have hfinish : s.feed.advance s.running .head = ⟨.finish, s.feed, .head⟩ := by
        simp [MemorySource.advance, hrunning, hv]
      simp only [Source.moveLoop, hadvance, hfinish, sendEnd_snd]
      exact .ends hrunning (List.getElem?_eq_none_iff.1 hv)

theorem memoryMove (files : FileTree) (p : Progress) (s : Source MemorySource) :
    MemoryMove s p (s.moveLoop files p).1 (s.moveLoop files p).2.2.1 (s.moveLoop files p).2.2.2 := by
  cases p with
  | resting rest =>
    have hadvance : Feed.advance files s.running (.resting rest) s.feed = restThen s.feed.interval s.feed .head := rfl
    cases hr : restOf s.feed.interval with
    | ok timed =>
      have hrest : restThen s.feed.interval s.feed .head = ⟨.pause (.rest timed), s.feed, .head⟩ := by
        rw [restThen, hr]
      simp only [Source.moveLoop, hadvance, hrest]
      exact .rests
    | error f =>
      have hrest : restThen s.feed.interval s.feed .head = ⟨.fail f, s.feed, .head⟩ := by
        rw [restThen, hr]
      simp only [Source.moveLoop, hadvance, hrest]
      exact .fails hr
  | _ => exact memoryMove_head s (by simp) files

/-- A move of a loop is one of these, and is told of in the loop's place. -/
theorem Moves.cases {files : FileTree} {l l' : SourceLife MemorySource} (h : Moves files l l') :
    ∃ before n p after signal next s, MemoryMove l.source p signal next s ∧
      l.loops = before ++ (n, p) :: after ∧ l'.loops = before ++ next.toList.map (n, ·) ++ after ∧
      l'.sent = l.sent ++ signal.toList.map (n, ·) ∧
      l'.source.feed = s.feed ∧ l'.source.running = s.running ∧ l'.source.ended = s.ended ∧
      (l'.source.loop = l.source.loop ∨ l'.source.loop = next) := by
  cases h with
  | latest h =>
    obtain ⟨p, hloop⟩ := Option.ne_none_iff_exists'.1 h
    have hmove := memoryMove files p l.source
    rcases hm : l.source.moveLoop files p with ⟨signal, state, next, s⟩
    rw [hm] at hmove
    unfold move Source.move
    simp only [hloop, hm]
    exact ⟨l.strays, l.runs, p, [], signal, next, s, hmove, by simp [loops, hloop], by simp [loops], rfl, rfl, rfl, rfl,
      .inr rfl⟩
  | @stray before n p after h =>
    have hmove := memoryMove files p l.source
    obtain ⟨_, _, hkept⟩ := moveLoop_source files p l.source
    unfold moveStray
    rcases hm : l.source.moveLoop files p with ⟨signal, state, next, s⟩
    rw [hm] at hmove hkept
    have hloop : s.loop = l.source.loop := (congrArg Source.loop hkept :)
    exact ⟨before, n, p, after ++ l.source.loop.toList.map (l.runs, ·), signal, next, s, hmove, by simp [loops, h],
      by simp [loops, hloop], rfl, rfl, rfl, rfl, .inl hloop⟩

/-! ### What all runs have sent -/

/-- What a turn does to what is told of a memory source. -/
inductive Turned (l l' : SourceLife MemorySource) : Prop where
  /-- Nothing. -/
  | quiet (sent : l'.sent = l.sent) (feed : l'.source.feed = l.source.feed) (ended : l'.source.ended = l.source.ended)
  /-- A loop makes a move, after which a subscriber may fail. -/
  | moved {n : Nat} {p : Progress} {signal : Option SourceSignal} {next : Option Progress} {s : Source MemorySource}
      (move : MemoryMove l.source p signal next s) (late : Option Failure)
      (sent : l'.sent = l.sent ++ signal.toList.map (n, ·) ++ (late.map SourceSignal.error).toList.map (n, ·))
      (feed : l'.source.feed = s.feed) (ended : l'.source.ended = s.ended)

variable {files : FileTree} {l l' : SourceLife MemorySource}

theorem Turn.turned (h : Turn files l l') (hstopping : l.stopping ≠ some true) : Turned l l' := by
  cases h with
  | step h =>
    cases h.effect with
    | quiet hsent hended _ _ hfeed => exact .quiet hsent (hfeed.elim id id) hended
    | begins _ hsent hended _ _ hfeed => exact .quiet hsent hfeed hended
    | @moves _ _ _ p _ _ _ _ hm hsent hended _ _ _ hfeed =>
      have hmove := memoryMove files p l.source
      rw [hm] at hmove
      exact .moved hmove none (hsent.trans (List.append_nil _).symm) hfeed hended
    | stops hs hsends hsignal hsent _ _ hfeed =>
      obtain rfl | ⟨-, rfl⟩ := hsignal
      · exact .quiet (hsent.trans (List.append_nil _)) hfeed hsends.of_nothing
      · exact absurd hs hstopping
  | @refuse v hv f =>
    unfold Source.move at hv
    cases hloop : l.source.loop with
    | none =>
      rw [hloop] at hv
      cases hv
    | some p =>
      unfold SourceLife.refuse move Source.move
      simp only [hloop]
      exact .moved (memoryMove files p l.source) (some f) rfl rfl rfl
  | refuseStray h hv f => exact .moved (memoryMove files _ l.source) (some f) rfl rfl rfl

/-- The stop of a memory source does not announce the end. -/
theorem Turn.stopping (h : Turn files l l') (hstopping : l.stopping ≠ some true) : l'.stopping ≠ some true := by
  cases h with
  | step h =>
    cases h with
    | start h => simpa [start, apply_ite SourceLife.stopping] using hstopping
    | beginStop h => simp [beginStop, Source.beginStop, Feed.endsOnStop]
    | finishStop h => simp [finishStop]
    | move | moveStray h | halt => exact hstopping
  | refuse h f => exact hstopping
  | refuseStray h hv f => exact hstopping

/-- The events that have been passed on, oldest first. -/
def passed (l : SourceLife MemorySource) : List Value := l.signals.filterMap SourceSignal.value?

/-- Where a memory source of given events stands. -/
structure Stands (events : List Value) (interval : Value) (s : Source MemorySource) : Prop where
  /-- The events do not change. -/
  input : s.feed.events = events
  /-- The interval does not change. -/
  rest : s.feed.interval = interval
  /-- No more events are counted as sent than there are. -/
  index : s.feed.index ≤ events.length
  /-- The end is announced after all of them. -/
  ended : s.ended = true → s.feed.index = events.length

section Progress

variable {events : List Value} {interval : Value} {s s' : Source MemorySource} {p : Progress}
  {signal : Option SourceSignal} {next : Option Progress}

theorem Stands.congr (h : Stands events interval s) (hfeed : s'.feed = s.feed) (hended : s'.ended = s.ended) :
    Stands events interval s' := by
  refine ⟨?_, ?_, ?_, ?_⟩ <;> simp only [hfeed, hended]
  · exact h.input
  · exact h.rest
  · exact h.index
  · exact h.ended

/-- An event that is left is sent. -/
theorem Stands.sendData (h : Stands events interval s) {v : Value} (hv : s.feed.events[s.feed.index]? = some v) :
    s.ended = false ∧ s.sendData v = some (.data v) ∧ ∃ hlt : s.feed.index < events.length, events[s.feed.index] = v := by
  rw [h.input] at hv
  obtain ⟨hlt, hv⟩ := List.getElem?_eq_some_iff.1 hv
  have hopen : s.ended = false := by
    rw [Bool.eq_false_iff]
    intro hended
    exact Nat.ne_of_lt hlt (h.ended hended)
  exact ⟨hopen, by rw [Source.sendData, hopen, if_neg Bool.false_ne_true], hlt, hv⟩

theorem Stands.move (h : Stands events interval s) (hm : MemoryMove s p signal next s') : Stands events interval s' := by
  cases hm with
  | rests | leaves => exact h
  | fails => exact ⟨h.input, h.rest, h.index, h.ended⟩
  | sends _ hv =>
    obtain ⟨hopen, -, hlt, -⟩ := h.sendData hv
    exact ⟨h.input, h.rest, hlt, fun hended => absurd (hopen.symm.trans hended) Bool.false_ne_true⟩
  | ends _ hle =>
    rw [h.input] at hle
    exact ⟨h.input, h.rest, h.index, fun _ => Nat.le_antisymm h.index hle⟩

/-- What is counted as sent is what is sent. -/
theorem Stands.take (h : Stands events interval s) (hm : MemoryMove s p signal next s') :
    events.take s'.feed.index = events.take s.feed.index ++ signal.toList.filterMap SourceSignal.value? := by
  have hnone : signal.toList.filterMap SourceSignal.value? = [] → s'.feed.index = s.feed.index →
      events.take s'.feed.index = events.take s.feed.index ++ signal.toList.filterMap SourceSignal.value? := by
    intro hvalue hindex
    rw [hvalue, hindex, List.append_nil]
  cases hm with
  | rests | leaves | fails => exact hnone rfl rfl
  | sends _ hv =>
    obtain ⟨-, hsend, hlt, rfl⟩ := h.sendData hv
    rw [hsend]
    exact List.take_succ_eq_append_getElem hlt
  | ends =>
    refine hnone ?_ rfl
    obtain hsignal | hsignal := sendEnd_fst s <;> rw [hsignal] <;> rfl

theorem MemoryMove.sends_signal (hm : MemoryMove s p signal next s') : Sends s.ended signal s'.ended := by
  cases hm with
  | rests | leaves => exact .nothing
  | fails => exact .error _
  | sends _ hv => exact sends_sendData s _
  | ends =>
    have hsends := sends_sendEnd s
    rw [sendEnd_snd] at hsends
    exact hsends

/-- What a memory source has sent in all its runs together, and what it has counted. -/
structure Progressed (events : List Value) (interval : Value) (l : SourceLife MemorySource) : Prop where
  /-- Where the source stands. -/
  stands : Stands events interval l.source
  /-- The events passed on are those that are counted. -/
  passed : l.passed = events.take l.source.feed.index
  /-- The end comes once, and nothing but errors after it. -/
  course : Course l.source.ended l.sent
  /-- A stop that is under way does not announce the end. -/
  stopping : l.stopping ≠ some true

theorem progressed_fresh (events : List Value) (interval : Value) :
    Progressed events interval (fresh ⟨events, interval, 0⟩) :=
  ⟨⟨rfl, rfl, Nat.zero_le _, nofun⟩, rfl, .open (by simp [fresh]), nofun⟩

/-- **Whatever happens to a run, all runs together have sent what is counted.** -/
theorem Progressed.turn (h : Progressed events interval l) (ht : Turn files l l') : Progressed events interval l' := by
  have hstopping := ht.stopping h.stopping
  cases ht.turned h.stopping with
  | quiet hsent hfeed hended =>
    refine ⟨h.stands.congr hfeed hended, ?_, ?_, hstopping⟩
    · rw [SourceLife.passed, signals, hsent, hfeed]
      exact h.passed
    · rw [hended, hsent]
      exact h.course
  | @moved n p signal next s hmove late hsent hfeed hended =>
    have hlast : Sends s.ended (late.map .error) s.ended := by cases late <;> constructor
    have hcourse := (h.course.extend hmove.sends_signal n).extend hlast n
    refine ⟨(h.stands.move hmove).congr hfeed hended, ?_, ?_, hstopping⟩
    · have hlate : (late.map SourceSignal.error).toList.filterMap SourceSignal.value? = [] := by cases late <;> rfl
      rw [hfeed, h.stands.take hmove, ← h.passed]
      simp [SourceLife.passed, signals, hsent, Function.comp_def, hlate]
    · rw [hended, hsent]
      exact hcourse

/-- The end is announced by a run that finds no event left. -/
theorem Progressed.finished (h : Progressed events interval l) (ht : Turn files l l') (hopen : .finished ∉ l.signals)
    (hclosed : .finished ∈ l'.signals) : l.source.running = true ∧ l.source.feed.index = events.length := by
  cases ht.turned h.stopping with
  | quiet hsent =>
    rw [signals, hsent] at hclosed
    exact absurd hclosed hopen
  | @moved n p signal next s hmove late hsent _ _ =>
    have hsignal : signal = some .finished := by
      simp only [signals, hsent, List.map_append, List.mem_append, List.map_map, Function.comp_def, List.map_id'] at hclosed
      obtain (hbefore | hsignal) | hlate := hclosed
      · exact absurd hbefore hopen
      · exact Option.mem_toList.1 hsignal
      · cases late <;> simp at hlate
    cases hmove with
    | rests | leaves | fails => cases hsignal
    | sends _ hv =>
      obtain ⟨-, hsend, -⟩ := h.stands.sendData hv
      rw [hsend] at hsignal
      cases hsignal
    | ends running hle =>
      rw [h.stands.input] at hle
      exact ⟨running, Nat.le_antisymm h.stands.index hle⟩

/-! ### A run that nothing cuts -/

/-- The signals that a memory source has still to send. -/
def outstanding (s : Source MemorySource) : List SourceSignal := s.feed.due ++ if s.ended then [] else [.finished]

theorem due_eq_nil {m : MemorySource} (h : m.events.length ≤ m.index) : m.due = [] := by
  rw [MemorySource.due, List.drop_of_length_le h, List.map_nil]

/-- A move sends what is outstanding, or leaves it. -/
theorem Stands.outstanding (h : Stands events interval s) (hrest : (restOf interval).isOk = true)
    (hm : MemoryMove s p signal next s') : signal.toList ++ SourceLife.outstanding s' = SourceLife.outstanding s := by
  cases hm with
  | rests | leaves => rfl
  | fails hfail =>
    rw [← h.rest, hfail] at hrest
    cases hrest
  | sends _ hv =>
    obtain ⟨-, hsend, hlt, rfl⟩ := h.sendData hv
    rw [hsend]
    simp only [SourceLife.outstanding, MemorySource.due, h.input]
    rw [List.drop_eq_getElem_cons hlt]
    rfl
  | ends _ hle =>
    rw [SourceLife.outstanding, SourceLife.outstanding, due_eq_nil hle]
    cases hended : s.ended <;> simp [Source.sendEnd, hended]

/-- A source that runs goes on with its loop, until nothing is outstanding. -/
theorem Stands.alive (h : Stands events interval s) (hrest : (restOf interval).isOk = true)
    (hm : MemoryMove s p signal next s') (hrunning : s.running = true) :
    s'.running = true ∧ next ≠ none ∨ SourceLife.outstanding s' = [] := by
  cases hm with
  | rests | sends => exact .inl ⟨hrunning, nofun⟩
  | fails hfail =>
    rw [← h.rest, hfail] at hrest
    cases hrest
  | ends _ hle =>
    right
    rw [SourceLife.outstanding, due_eq_nil hle]
    rfl
  | leaves hhalted =>
    rw [hrunning] at hhalted
    cases hhalted

/-- How near a loop is to its next event or to its end. -/
def weight : Progress → Nat
  | .resting _ => 2
  | _ => 1

theorem weight_le (p : Progress) : weight p ≤ 2 := by
  cases p <;> simp [weight]

theorem weight_pos (p : Progress) : 0 < weight p := by
  cases p <;> exact Nat.succ_pos _

/-- More moves than this will not be made: three for each event, and those of the loops that are there. -/
def load (l : SourceLife MemorySource) : Nat :=
  3 * l.source.feed.due.length + (l.loops.map fun x => weight x.2).sum

theorem Stands.load (h : Stands events interval s) (hm : MemoryMove s p signal next s') :
    3 * s'.feed.due.length + (next.toList.map weight).sum < 3 * s.feed.due.length + weight p := by
  have hpos := weight_pos p
  cases hm with
  | rests => exact Nat.add_lt_add_left (Nat.lt_succ_self 1) _
  | fails | ends | leaves => exact Nat.add_lt_add_left hpos _
  | sends _ hv =>
    obtain ⟨-, -, hlt, -⟩ := h.sendData hv
    simp only [MemorySource.due, List.length_map, List.length_drop, h.input, Option.toList_some, List.map_cons,
      List.map_nil, List.sum_cons, List.sum_nil, weight]
    omega

/-- A run is under way: the source runs, and so does its loop; or nothing is outstanding. -/
structure Underway (events : List Value) (interval : Value) (l : SourceLife MemorySource) : Prop where
  /-- Where the source stands. -/
  stands : Stands events interval l.source
  /-- The loop goes on as long as anything is outstanding. -/
  alive : l.source.running = true ∧ l.source.loop ≠ none ∨ outstanding l.source = []

/-- **A move of a run that nothing cuts** sends the next of what is outstanding, or brings a loop nearer to it. -/
theorem Underway.moves (h : Underway events interval l) (hrest : (restOf interval).isOk = true)
    (hm : Moves files l l') :
    Underway events interval l' ∧ load l' < load l ∧
      ∃ (n : Nat) (signal : Option SourceSignal), l'.sent = l.sent ++ signal.toList.map (n, ·) ∧
        signal.toList ++ outstanding l'.source = outstanding l.source ∧
        n ∈ l.loops.map Prod.fst ∧ l'.loops.map Prod.fst ⊆ l.loops.map Prod.fst := by
  obtain ⟨before, n, p, after, signal, next, s, hmove, hloops, hloops', hsent, hfeed, hrunning, hended, hloop⟩ := hm.cases
  have hsame : outstanding l'.source = outstanding s := by rw [outstanding, outstanding, hfeed, hended]
  have hkept := h.stands.outstanding hrest hmove
  refine ⟨⟨(h.stands.move hmove).congr hfeed hended, ?_⟩, ?_, n, signal, hsent, ?_, ?_, ?_⟩
  · rw [hsame, hrunning]
    obtain ⟨hruns, hhas⟩ | hnone := h.alive
    · refine (h.stands.alive hrest hmove hruns).imp_left fun ⟨hruns', hnext⟩ => ⟨hruns', ?_⟩
      obtain hloop | hloop := hloop <;> rw [hloop]
      · exact hhas
      · exact hnext
    · rw [hnone] at hkept
      exact .inr (List.append_eq_nil_iff.1 hkept).2
  · have hload := h.stands.load hmove
    have hnext : (next.toList.map (n, ·)).map (fun x => weight x.2) = next.toList.map weight := List.map_map
    rw [load, load, hloops, hloops', hfeed]
    simp only [List.map_append, List.map_cons, List.sum_append, List.sum_cons, hnext]
    omega
  · rw [hsame, hkept]
  · rw [hloops]
    simp
  · rw [hloops, hloops']
    cases next <;> simp

/-- **A run that nothing cuts** comes to its end and sends what is outstanding at its begin. -/
theorem Underway.goes (h : Underway events interval l) (hrest : (restOf interval).isOk = true) {n : Nat}
    (hg : Goes files n l l') :
    Underway events interval l' ∧ n + load l' ≤ load l ∧
      ∃ new : List (Nat × SourceSignal), l'.sent = l.sent ++ new ∧
        new.map Prod.snd ++ outstanding l'.source = outstanding l.source ∧
        (∀ x ∈ new, x.1 ∈ l.loops.map Prod.fst) ∧ l'.loops.map Prod.fst ⊆ l.loops.map Prod.fst := by
  induction hg with
  | none l => exact ⟨h, Nat.le_of_eq (Nat.zero_add _), [], (List.append_nil _).symm, rfl, nofun, fun _ hm => hm⟩
  | more _ hm ih =>
    obtain ⟨hunder, hload, new, hsent, hkept, htags, hloops⟩ := ih h
    obtain ⟨hunder', hload', n', signal, hsent', hkept', htag, hloops'⟩ := hunder.moves hrest hm
    refine ⟨hunder', by omega, new ++ signal.toList.map (n', ·), ?_, ?_, ?_, fun _ hin => hloops (hloops' hin)⟩
    · rw [hsent', hsent, List.append_assoc]
    · rw [← hkept, ← hkept']
      simp [Function.comp_def]
    · refine List.forall_mem_append.2 ⟨htags, fun x hx => ?_⟩
      obtain ⟨y, -, rfl⟩ := List.mem_map.1 hx
      exact hloops htag

/-! ### The whole life of a memory source -/

theorem progressed_of_turns (hl : ReflTransGen (Turn files) (fresh ⟨events, interval, 0⟩) l) :
    Progressed events interval l := by
  induction hl with
  | refl => exact progressed_fresh events interval
  | tail _ ht ih => exact ih.turn ht

/-- A run begins, next to what is left of those before. -/
theorem start_eq {l : SourceLife MemorySource} (h : l.source.running = false) :
    l.start =
      { l with
        source := { l.source with
          running := true
          loop := some .head
          strays := l.source.strays ++ l.source.loop.toList }
        runs := l.runs + 1
        strays := l.loops } := by
  unfold start Source.start
  rw [h]
  rfl

theorem Progressed.underway (h : Progressed events interval l) (hidle : l.source.running = false) :
    Underway events interval l.start := by
  rw [start_eq hidle]
  exact ⟨h.stands.congr rfl rfl, .inl ⟨rfl, nofun⟩⟩

theorem loops_start (hidle : l.source.running = false) : l.start.loops = l.loops ++ [(l.runs + 1, .head)] := by
  rw [start_eq hidle]
  rfl

theorem load_start (hidle : l.source.running = false) :
    load l.start ≤ 3 * l.source.feed.due.length + 2 * l.loops.length + 1 := by
  have hsum : (l.loops.map fun x => weight x.2).sum ≤ l.loops.length * 2 := by
    induction l.loops with
    | nil => exact Nat.le_refl _
    | cons x loops ih =>
      have hx := weight_le x.2
      rw [List.map_cons, List.sum_cons, List.length_cons]
      omega
  have hfeed : l.start.source.feed = l.source.feed := by rw [start_eq hidle]
  have hhead : ([(l.runs + 1, .head)].map fun x : Nat × Progress => weight x.2).sum = 1 := rfl
  rw [load, loops_start hidle, hfeed, List.map_append, List.sum_append, hhead]
  omega

end Progress

/-- No files are there, and none are needed. -/
def noFiles : FileTree := FileTree.empty "/w"

/-- A source of three events. A subscriber fails on the first one. -/
def refusedOnce : SourceLife MemorySource :=
  ((fresh ⟨[.int 1, .int 2, .int 3], .int 0, 0⟩).start).refuse noFiles (.plain .value "no")

theorem turns_refusedOnce :
    ReflTransGen (Turn noFiles) (fresh ⟨[.int 1, .int 2, .int 3], .int 0, 0⟩) refusedOnce :=
  .tail (.tail .refl (.step (.start rfl))) (.refuse (v := .int 1) rfl _)

/-- A source that is to rest for a time that has no value in double precision. -/
def overlong : MemorySource := ⟨[.int 1, .int 2], .int (Int.ofNat (Nat.pow 10 400)), 0⟩

/-- A source of two events, halted while its loop rests behind the first one. -/
def haltedResting : SourceLife MemorySource := ((fresh ⟨[.int 1, .int 2], .int 0, 0⟩).start.move noFiles).halt

theorem turns_haltedResting : ReflTransGen (Turn noFiles) (fresh ⟨[.int 1, .int 2], .int 0, 0⟩) haltedResting :=
  .tail (.tail (.tail .refl (.step (.start rfl))) (.step (.move _))) (.step (.halt _))

/-- It is started again, and the loop of the first run sends the second event. -/
def overtaken : SourceLife MemorySource :=
  (haltedResting.start.moveStray noFiles [] 1 (.resting none) []).moveStray noFiles [] 1 .head []

theorem goes_overtaken : Goes noFiles 2 haltedResting.start overtaken :=
  .more (.more (.none _) (.stray (by decide +kernel))) (.stray (by decide +kernel))

end SourceLife

end EventPipeline
