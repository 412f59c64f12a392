import EventPipeline.Connector.Source
import Mathlib.Data.List.TakeWhile
import Mathlib.Logic.Relation

/-!
# The life of a source

A source lives from its making on. Its owner starts and stops it, one call after the other and as often as
it likes; its loops move in between, and while a stop is under way; and any subscriber may halt it, so that
it no longer runs. A start after a halt leaves the loop of the run before as a stray, which goes on. `Step`
is one of these, and `Reaches` any number of them.

What a source has sent is kept together with the run that sent it. `Effect` says once what a step does to
that; the laws below and those of the kinds of sources follow from it.

* `Course`: the end is announced at most once, and then nothing but errors is sent.
* `Announces`: a source that announces the end when it is stopped has done so once it has been stopped.
-/

namespace EventPipeline

open Relation (ReflTransGen)

variable {σ : Type}

/-- A source in the course of its life. -/
structure SourceLife (σ : Type) where
  /-- The source. -/
  source : Source σ
  /-- How many runs there have been. They are counted from one on. -/
  runs : Nat
  /-- The loops of earlier runs that have not ended, each with its run. -/
  strays : List (Nat × Progress)
  /-- What was sent, oldest first, each signal with its run. -/
  sent : List (Nat × SourceSignal)
  /-- A stop is under way, and whether it will announce the end. -/
  stopping : Option Bool
  /-- It has been stopped after a start. -/
  stopped : Bool

namespace SourceLife

/-- A source that has just been made. -/
def fresh (feed : σ) : SourceLife σ := ⟨.ofFeed feed, 0, [], [], none, false⟩

/-- The signals, oldest first. -/
def signals (l : SourceLife σ) : List SourceSignal := l.sent.map Prod.snd

/-- All loops that have not ended, each with its run. -/
def loops (l : SourceLife σ) : List (Nat × Progress) := l.strays ++ l.source.loop.toList.map (l.runs, ·)

/-! ### The course of the signals -/

/-- What a source can send, given whether it has announced the end before, and has done so after. -/
inductive Sends : Bool → Option SourceSignal → Bool → Prop where
  | nothing {ended} : Sends ended none ended
  | data (v) : Sends false (some (.data v)) false
  | finished : Sends false (some .finished) true
  | error {ended} (f) : Sends ended (some (.error f)) ended

theorem Sends.of_nothing {ended ended' : Bool} (h : Sends ended none ended') : ended' = ended := by
  cases h
  rfl

theorem Sends.of_closed {ended' : Bool} {signal : Option SourceSignal} (h : Sends true signal ended') :
    ended' = true := by
  cases h <;> rfl

theorem Sends.of_finished {ended ended' : Bool} (h : Sends ended (some .finished) ended') : ended' = true := by
  cases h
  rfl

/-- What was sent before the end was announced. -/
def early (sent : List (Nat × SourceSignal)) : List (Nat × SourceSignal) :=
  sent.takeWhile (fun x => decide (x.2 ≠ .finished))

/-- Signals come until the end is announced, and then nothing but errors. -/
inductive Course : Bool → List (Nat × SourceSignal) → Prop where
  | open {sent} (h : ∀ x ∈ sent, x.2 ≠ .finished) : Course false sent
  | closed {before n after} (hbefore : ∀ x ∈ before, x.2 ≠ .finished)
      (hafter : ∀ x ∈ after, ∃ f, x.2 = .error f) : Course true (before ++ (n, .finished) :: after)

section Course

variable {sent : List (Nat × SourceSignal)} {ended ended' : Bool} {signal : Option SourceSignal}

theorem Course.of_unfinished (h : ∀ x ∈ sent, x.2 ≠ .finished) {x : SourceSignal} (hx : x ≠ .finished) (n : Nat) :
    Course false (sent ++ [(n, x)]) :=
  .open (List.forall_mem_append.2 ⟨h, List.forall_mem_singleton.2 hx⟩)

/-- What a source can send keeps the course. -/
theorem Course.extend (h : Course ended sent) (hs : Sends ended signal ended') (n : Nat) :
    Course ended' (sent ++ signal.toList.map (n, ·)) := by
  cases hs with
  | nothing => simpa using h
  | data v =>
    obtain ⟨h⟩ := h
    exact .of_unfinished h (by simp) n
  | finished =>
    obtain ⟨h⟩ := h
    exact .closed h (by simp)
  | error f =>
    cases h with
    | «open» h => exact .of_unfinished h (by simp) n
    | closed hbefore hafter =>
      rw [List.append_assoc, List.cons_append]
      exact .closed hbefore (List.forall_mem_append.2 ⟨hafter, List.forall_mem_singleton.2 ⟨f, rfl⟩⟩)

theorem unfinished_of_error (h : ∀ x ∈ sent, ∃ f, x.2 = .error f) : ∀ x ∈ sent, x.2 ≠ .finished := by
  intro x hx
  obtain ⟨f, hf⟩ := h x hx
  simp [hf]

theorem count_finished (h : ∀ x ∈ sent, x.2 ≠ .finished) : (sent.map Prod.snd).count .finished = 0 := by
  rw [List.count_eq_zero, List.mem_map]
  rintro ⟨x, hx, heq⟩
  exact h x hx heq

/-- The end is announced once if it has been announced at all. -/
theorem Course.count (h : Course ended sent) : (sent.map Prod.snd).count .finished = ended.toNat := by
  cases h with
  | «open» h => exact count_finished h
  | closed hbefore hafter =>
    simp [List.count_append, count_finished hbefore, count_finished (unfinished_of_error hafter)]

/-- The end has been announced exactly if it is among the signals. -/
theorem ended_iff {l : SourceLife σ} (h : Course l.source.ended l.sent) : .finished ∈ l.signals ↔ l.source.ended = true := by
  rw [← List.count_pos_iff, signals, h.count]
  cases l.source.ended <;> decide

theorem pairwise_of_unfinished (h : ∀ x ∈ sent, x.2 ≠ .finished) :
    sent.Pairwise fun x y => x.2 = .finished → ∃ f, y.2 = .error f :=
  List.pairwise_iff_forall_sublist.2 fun hsub hx => absurd hx (h _ (hsub.subset (by simp)))

/-- After the end, nothing but errors is sent. -/
theorem Course.pairwise (h : Course ended sent) :
    sent.Pairwise fun x y => x.2 = .finished → ∃ f, y.2 = .error f := by
  cases h with
  | «open» h => exact pairwise_of_unfinished h
  | closed hbefore hafter =>
    refine List.pairwise_append.2 ⟨pairwise_of_unfinished hbefore, ?_, fun x hx _ _ hf => absurd hf (hbefore x hx)⟩
    exact List.pairwise_cons.2 ⟨fun y hy _ => hafter y hy, pairwise_of_unfinished (unfinished_of_error hafter)⟩

theorem Course.of_finished (h : Course ended sent) {before after : List SourceSignal}
    (hsent : sent.map Prod.snd = before ++ .finished :: after) : ∀ x ∈ after, ∃ f, x = .error f := by
  have hpairwise : (sent.map Prod.snd).Pairwise fun x y => x = .finished → ∃ f, y = .error f :=
    List.pairwise_map.2 h.pairwise
  rw [hsent, List.pairwise_append, List.pairwise_cons] at hpairwise
  exact fun x hx => hpairwise.2.1.1 x hx rfl

theorem Course.early_open (h : Course false sent) : early sent = sent := by
  obtain ⟨h⟩ := h
  exact List.takeWhile_eq_self_iff.2 (by simpa using h)

theorem early_append_finished (h : ∀ x ∈ sent, x.2 ≠ .finished) (n : Nat) (later : List (Nat × SourceSignal)) :
    early (sent ++ (n, .finished) :: later) = sent := by
  rw [early, List.takeWhile_append_of_pos (by simpa using h)]
  simp

theorem Course.early_finished (h : Course false sent) (n : Nat) : early (sent ++ [(n, .finished)]) = sent := by
  obtain ⟨h⟩ := h
  exact early_append_finished h n []

theorem Course.early_closed (h : Course true sent) (later : List (Nat × SourceSignal)) :
    early (sent ++ later) = early sent := by
  obtain _ | ⟨hbefore, -⟩ := h
  rw [List.append_assoc, List.cons_append, early_append_finished hbefore, early_append_finished hbefore]

end Course

/-! ### Steps -/

/-- The source is started. -/
def start [Feed σ] (l : SourceLife σ) : SourceLife σ :=
  let (r, s) := l.source.start
  if !l.source.running && r.isOk then
    { l with source := s, runs := l.runs + 1, strays := l.loops }
  else { l with source := s }

/-- The loop of the latest run makes a move. -/
def move [Feed σ] (files : FileTree) (l : SourceLife σ) : SourceLife σ :=
  let (signal, _, s) := l.source.move files
  { l with source := s, sent := l.sent ++ signal.toList.map (l.runs, ·) }

/-- The loop of an earlier run, which stands between others, makes a move. -/
def moveStray [Feed σ] (files : FileTree) (before : List (Nat × Progress)) (n : Nat) (p : Progress)
    (after : List (Nat × Progress)) (l : SourceLife σ) : SourceLife σ :=
  let (signal, _, p, s) := l.source.moveLoop files p
  let strays := before ++ p.toList.map (n, ·) ++ after
  { l with
    source := { s with strays := strays.map Prod.snd }
    strays := strays
    sent := l.sent ++ signal.toList.map (n, ·) }

/-- A subscriber halts the source. -/
def halt (l : SourceLife σ) : SourceLife σ := { l with source := { l.source with running := false } }

/-- A stop begins. -/
def beginStop [Feed σ] (l : SourceLife σ) : SourceLife σ :=
  let (announces, s) := l.source.beginStop
  { l with source := s, stopping := some announces }

/-- A stop comes to its end. -/
def finishStop [Feed σ] (announces : Bool) (l : SourceLife σ) : SourceLife σ :=
  let (r, s) := l.source.finishStop announces
  let signal := match r with
    | .ok signal => signal
    | .error _ => none
  { l with
    source := s
    sent := l.sent ++ signal.toList.map (l.runs, ·)
    stopping := none
    stopped := l.stopped || 0 < l.runs }

/-- One step in the life of a source. A call of its owner begins after the one before has come to its end; a start is
over at once, while loops go on moving during a stop. -/
inductive Step [Feed σ] (files : FileTree) : SourceLife σ → SourceLife σ → Prop where
  /-- Its owner starts it. -/
  | start {l} (h : l.stopping = none) : Step files l l.start
  /-- Its loop makes a move. -/
  | move (l) : Step files l (l.move files)
  /-- A stray loop makes a move. -/
  | moveStray {l before n p after} (h : l.strays = before ++ (n, p) :: after) :
      Step files l (l.moveStray files before n p after)
  /-- A subscriber halts it. -/
  | halt (l) : Step files l l.halt
  /-- Its owner begins to stop it. -/
  | beginStop {l} (h : l.stopping = none) : Step files l l.beginStop
  /-- The stop comes to its end. -/
  | finishStop {l announces} (h : l.stopping = some announces) : Step files l (l.finishStop announces)

/-- Any number of steps. -/
def Reaches [Feed σ] (files : FileTree) : SourceLife σ → SourceLife σ → Prop := ReflTransGen (Step files)

/-! ### What a step does -/

theorem sendEnd_snd (s : Source σ) : s.sendEnd.2 = { s with ended := true } := by
  rcases s with ⟨feed, running, _ | _, loop, strays⟩ <;> rfl

theorem sendEnd_fst (s : Source σ) : s.sendEnd.1 = none ∨ s.sendEnd.1 = some .finished := by
  rcases s with ⟨feed, running, _ | _, loop, strays⟩
  · exact .inr rfl
  · exact .inl rfl

theorem sends_sendEnd (s : Source σ) : Sends s.ended s.sendEnd.1 s.sendEnd.2.ended := by
  rcases s with ⟨feed, running, _ | _, loop, strays⟩
  · exact .finished
  · exact .nothing

theorem sends_sendData (s : Source σ) (v : Value) : Sends s.ended (s.sendData v) s.ended := by
  rcases s with ⟨feed, running, _ | _, loop, strays⟩
  · exact .data v
  · exact .nothing

variable [Feed σ] {files : FileTree} {l l' : SourceLife σ}

theorem sends_moveLoop (files : FileTree) (p : Progress) (s : Source σ) :
    Sends s.ended (s.moveLoop files p).1 (s.moveLoop files p).2.2.2.ended := by
  rcases ha : Feed.advance files s.running p s.feed with ⟨move, feed, next⟩
  simp only [Source.moveLoop, ha]
  cases move with
  | data v => exact sends_sendData { s with feed := feed } v
  | finish => exact sends_sendEnd { s with feed := feed }
  | error f | fail f => exact .error f
  | skip | pause _ | wait | leave => exact .nothing

/-- A move of a loop changes the feed, and whether the source runs and has announced the end, and nothing else. -/
theorem moveLoop_source (files : FileTree) (p : Progress) (s : Source σ) : ∃ running ended,
    (s.moveLoop files p).2.2.2 =
      { s with feed := (Feed.advance files s.running p s.feed).feed, running := running, ended := ended } := by
  rcases ha : Feed.advance files s.running p s.feed with ⟨move, feed, next⟩
  simp only [Source.moveLoop, ha]
  cases move with
  | finish => exact ⟨false, true, by simp only [sendEnd_snd]⟩
  | _ => exact ⟨_, _, rfl⟩

/-- What a step does to the loops of a source, its feed, and what it has sent. -/
inductive Effect (files : FileTree) (l l' : SourceLife σ) : Prop where
  /-- Nothing is sent, and no loop moves; some may end. -/
  | quiet (sent : l'.sent = l.sent) (ended : l'.source.ended = l.source.ended) (runs : l'.runs = l.runs)
      (loops : l'.loops.Sublist l.loops)
      (feed : l'.source.feed = l.source.feed ∨ l'.source.feed = (Feed.connect l.source.feed).2)
  /-- A new loop begins. -/
  | begins (ok : (Feed.connect l.source.feed).1.isOk = true) (sent : l'.sent = l.sent)
      (ended : l'.source.ended = l.source.ended) (runs : l'.runs = l.runs + 1)
      (loops : l'.loops = l.loops ++ [(l.runs + 1, .head)])
      (feed : l'.source.feed = (Feed.connect l.source.feed).2)
  /-- A loop makes a move. -/
  | moves {before after : List (Nat × Progress)} {n : Nat} {p : Progress} {signal : Option SourceSignal}
      {state : LoopState} {next : Option Progress} {s : Source σ}
      (move : l.source.moveLoop files p = (signal, state, next, s))
      (sent : l'.sent = l.sent ++ signal.toList.map (n, ·)) (ended : l'.source.ended = s.ended)
      (runs : l'.runs = l.runs) (loops : l.loops = before ++ (n, p) :: after)
      (loops' : l'.loops = before ++ next.toList.map (n, ·) ++ after) (feed : l'.source.feed = s.feed)
  /-- A stop comes to its end, and announces that of the source or not. -/
  | stops {announces : Bool} {signal : Option SourceSignal} (stopping : l.stopping = some announces)
      (sends : Sends l.source.ended signal l'.source.ended)
      (signal_eq : signal = none ∨ signal = some .finished ∧ announces = true)
      (sent : l'.sent = l.sent ++ signal.toList.map (l.runs, ·)) (runs : l'.runs = l.runs)
      (loops : l'.loops = l.loops) (feed : l'.source.feed = (Feed.disconnect l.source.feed).2)

theorem effect_start (l : SourceLife σ) : Effect files l l.start := by
  unfold start Source.start
  cases hrunning : l.source.running with
  | true => exact .quiet rfl rfl rfl (.refl _) (.inl rfl)
  | false =>
    rcases hc : Feed.connect l.source.feed with ⟨_ | _, feed⟩
    · exact .quiet rfl rfl rfl (.refl _) (.inr (by rw [hc]; rfl))
    · exact .begins (by rw [hc]; rfl) rfl rfl rfl rfl (by rw [hc]; rfl)

theorem effect_move (l : SourceLife σ) : Effect files l (l.move files) := by
  unfold move Source.move
  cases hloop : l.source.loop with
  | none =>
    simp only [Option.toList_none, List.map_nil, List.append_nil]
    exact .quiet rfl rfl rfl (.refl _) (.inl rfl)
  | some p =>
    rcases hm : l.source.moveLoop files p with ⟨signal, state, next, s⟩
    have hloops : l.loops = l.strays ++ [(l.runs, p)] := by simp [loops, hloop]
    simp only [hm]
    exact .moves hm rfl rfl rfl hloops (List.append_nil _).symm rfl

theorem effect_moveStray {before after : List (Nat × Progress)} {n : Nat} {p : Progress}
    (h : l.strays = before ++ (n, p) :: after) : Effect files l (l.moveStray files before n p after) := by
  unfold moveStray
  rcases hm : l.source.moveLoop files p with ⟨signal, state, next, s⟩
  have hloop : s.loop = l.source.loop := by
    obtain ⟨_, _, hkept⟩ := moveLoop_source files p l.source
    rw [hm] at hkept
    exact (congrArg Source.loop hkept :)
  have hloops : l.loops = before ++ (n, p) :: (after ++ l.source.loop.toList.map (l.runs, ·)) := by
    rw [loops, h, List.append_assoc, List.cons_append]
  refine .moves hm rfl rfl rfl hloops ?_ rfl
  simp only [loops, hloop, List.append_assoc]

theorem effect_beginStop (l : SourceLife σ) : Effect files l l.beginStop := by
  refine .quiet rfl rfl rfl ?_ (.inl rfl)
  show (l.strays ++ []).Sublist l.loops
  rw [List.append_nil]
  exact List.sublist_append_left ..

theorem effect_finishStop {announces : Bool} (h : l.stopping = some announces) :
    Effect files l (l.finishStop announces) := by
  unfold finishStop Source.finishStop
  rcases hd : Feed.disconnect l.source.feed with ⟨_ | _, feed⟩
  · exact .stops h .nothing (.inl rfl) rfl rfl rfl (by rw [hd])
  · cases announces with
    | false => exact .stops h .nothing (.inl rfl) rfl rfl rfl (by rw [hd]; rfl)
    | true =>
      have hsends := sends_sendEnd { l.source with feed := feed }
      have hkept := sendEnd_snd { l.source with feed := feed }
      refine .stops h hsends ((sendEnd_fst _).imp_right (⟨·, rfl⟩)) rfl rfl ?_ ?_ <;>
        simp only [if_true, hkept, loops, hd]

/-- What a step does. -/
theorem Step.effect (h : Step files l l') : Effect files l l' := by
  cases h with
  | start _ => exact effect_start l
  | move => exact effect_move l
  | moveStray h => exact effect_moveStray h
  | halt => exact .quiet rfl rfl rfl (.refl _) (.inl rfl)
  | beginStop _ => exact effect_beginStop l
  | finishStop h => exact effect_finishStop h

/-- What holds of the feed at first, and is kept by whatever a source does with its feed, holds of it for ever. -/
structure Steady (files : FileTree) (P : σ → Prop) : Prop where
  connect {s} : P s → P (Feed.connect s).2
  advance {s} (running p) : P s → P (Feed.advance files running p s).feed
  disconnect {s} : P s → P (Feed.disconnect s).2

theorem Steady.and {P Q : σ → Prop} (hP : Steady files P) (hQ : Steady files Q) :
    Steady files fun s => P s ∧ Q s where
  connect h := ⟨hP.connect h.1, hQ.connect h.2⟩
  advance running p h := ⟨hP.advance running p h.1, hQ.advance running p h.2⟩
  disconnect h := ⟨hP.disconnect h.1, hQ.disconnect h.2⟩

theorem feed_moveLoop (files : FileTree) (p : Progress) (s : Source σ) :
    (s.moveLoop files p).2.2.2.feed = (Feed.advance files s.running p s.feed).feed := by
  obtain ⟨_, _, hkept⟩ := moveLoop_source files p s
  exact congrArg Source.feed hkept

theorem Steady.step {P : σ → Prop} (h : Steady files P) (hl : P l.source.feed) (hs : Step files l l') :
    P l'.source.feed := by
  cases hs.effect with
  | quiet _ _ _ _ hfeed =>
    obtain hfeed | hfeed := hfeed
    · rwa [hfeed]
    · rw [hfeed]; exact h.connect hl
  | begins _ _ _ _ _ hfeed => rw [hfeed]; exact h.connect hl
  | @moves _ _ _ p _ _ _ _ hm _ _ _ _ _ hfeed =>
    have hmoved := feed_moveLoop files p l.source
    rw [hm] at hmoved
    rw [hfeed, hmoved]
    exact h.advance _ _ hl
  | stops _ _ _ _ _ _ hfeed => rw [hfeed]; exact h.disconnect hl

theorem Steady.reaches {P : σ → Prop} (h : Steady files P) (hl : P l.source.feed) (hr : Reaches files l l') :
    P l'.source.feed := by
  induction hr with
  | refl => exact hl
  | tail _ hs ih => exact h.step ih hs

/-- The loops that are kept with their runs are those of the source. -/
theorem strays_of_reaches {feed : σ} (h : Reaches files (fresh feed) l) : l.source.strays = l.strays.map Prod.snd := by
  induction h with
  | refl => rfl
  | @tail l l' _ hs ih =>
    cases hs with
    | start _ =>
      unfold start Source.start
      cases hrunning : l.source.running with
      | true => exact ih
      | false =>
        rcases Feed.connect l.source.feed with ⟨_ | _, feed⟩
        · exact ih
        · show l.source.strays ++ l.source.loop.toList = l.loops.map Prod.snd
          simp [loops, ih, Function.comp_def]
    | move =>
      unfold move Source.move
      cases hloop : l.source.loop with
      | none => exact ih
      | some p =>
        obtain ⟨_, _, hkept⟩ := moveLoop_source files p l.source
        exact (congrArg Source.strays hkept).trans ih
    | moveStray _ => rfl
    | halt | beginStop _ => exact ih
    | @finishStop announces _ =>
      unfold finishStop Source.finishStop
      rcases Feed.disconnect l.source.feed with ⟨_ | _, feed⟩
      · exact ih
      · cases announces with
        | false => exact ih
        | true => simpa [sendEnd_snd] using ih

/-! ### The end of a source -/

theorem Effect.sends (h : Effect files l l') : ∃ n signal,
    l'.sent = l.sent ++ signal.toList.map (n, ·) ∧ Sends l.source.ended signal l'.source.ended := by
  cases h with
  | quiet hsent hended =>
    exact ⟨0, none, hsent.trans (List.append_nil _).symm, hended ▸ .nothing⟩
  | begins _ hsent hended =>
    exact ⟨0, none, hsent.trans (List.append_nil _).symm, hended ▸ .nothing⟩
  | @moves _ _ n p signal _ _ s hm hsent hended =>
    have hsends := sends_moveLoop files p l.source
    rw [hm] at hsends
    exact ⟨n, signal, hsent, hended ▸ hsends⟩
  | @stops _ signal _ hsends _ hsent => exact ⟨l.runs, signal, hsent, hsends⟩

theorem Course.step (h : Course l.source.ended l.sent) (hs : Step files l l') : Course l'.source.ended l'.sent := by
  obtain ⟨n, signal, hsent, hsends⟩ := hs.effect.sends
  rw [hsent]
  exact h.extend hsends n

/-- The signals of a source take their course. -/
theorem course_of_reaches {feed : σ} (h : Reaches files (fresh feed) l) : Course l.source.ended l.sent := by
  induction h with
  | refl => exact .open (by simp [fresh])
  | tail _ hs ih => exact ih.step hs

/-- An announced end stays so. -/
theorem Step.ended (h : Step files l l') (hended : l.source.ended = true) : l'.source.ended = true := by
  obtain ⟨_, _, -, hsends⟩ := h.effect.sends
  rw [hended] at hsends
  exact hsends.of_closed

/-- Stopping a source of this kind does not announce the end. -/
theorem stopping_of_reaches {P : σ → Prop} (hP : Steady files P)
    (hquiet : ∀ running s, P s → Feed.endsOnStop running s = false) {feed : σ} (hfeed : P feed)
    (h : Reaches files (fresh feed) l) : l.stopping ≠ some true := by
  induction h with
  | refl => simp [fresh]
  | tail hr hs ih =>
    have hp := hP.reaches hfeed hr
    cases hs with
    | beginStop _ => simp [beginStop, Source.beginStop, hquiet _ _ hp]
    | finishStop _ => simp [finishStop]
    | start h => simpa [start, apply_ite stopping] using ih
    | move | moveStray _ | halt => exact ih

/-- A source of a kind whose loops never announce the end, and whose stop does not, never announces it. -/
theorem not_ended_of_reaches {P : σ → Prop} (hP : Steady files P)
    (hquiet : ∀ running s, P s → Feed.endsOnStop running s = false)
    (hmove : ∀ running p s, P s → (Feed.advance files running p s).move ≠ .finish) {feed : σ} (hfeed : P feed)
    (h : Reaches files (fresh feed) l) : l.source.ended = false := by
  induction h with
  | refl => rfl
  | @tail l l' hr hs ih =>
    cases hs.effect with
    | quiet _ hended => exact hended.trans ih
    | begins _ _ hended => exact hended.trans ih
    | @moves _ _ _ p _ _ _ s hm _ hended =>
      have hkept : (l.source.moveLoop files p).2.2.2.ended = l.source.ended := by
        have hmove' := hmove l.source.running p _ (hP.reaches hfeed hr)
        rcases ha : Feed.advance files l.source.running p l.source.feed with ⟨move, feed, next⟩
        rw [ha] at hmove'
        simp only [Source.moveLoop, ha]
        cases move with
        | finish => exact absurd rfl hmove'
        | _ => rfl
      rw [hm] at hkept
      exact (hended.trans hkept).trans ih
    | stops hstopping hsends hsignal =>
      obtain rfl | ⟨-, rfl⟩ := hsignal
      · exact hsends.of_nothing.trans ih
      · exact absurd hstopping (stopping_of_reaches hP hquiet hfeed hr)

/-- A kind of source that announces the end when it is stopped after a start. -/
structure Announces (files : FileTree) (P Opened : σ → Prop) : Prop where
  steady : Steady files P
  connect {s} : P s → (Feed.connect s).1.isOk = true ∨ Opened s → Opened (Feed.connect s).2
  advance {s} (running p) : P s → Opened s → Opened (Feed.advance files running p s).feed
  endsOnStop {s} (running) : Opened s → Feed.endsOnStop running s = true
  disconnect {s} : P s → (Feed.disconnect s).1 = .ok ()

/-- Whether a source that was started will have announced the end once it has been stopped. -/
structure Awaited (Opened : σ → Prop) (l : SourceLife σ) : Prop where
  idle : l.stopping = none → 0 < l.runs → l.source.ended = true ∨ Opened l.source.feed
  stopping {announces} : l.stopping = some announces → 0 < l.runs → l.source.ended = true ∨ announces = true
  stopped : l.stopped = true → l.source.ended = true

theorem Announces.opened {P Opened : σ → Prop} (h : Announces files P Opened) (hp : P l.source.feed)
    (hs : Step files l l') (hidle : l.stopping = none) (hl : Awaited Opened l) (hruns : 0 < l'.runs) :
    l'.source.ended = true ∨ Opened l'.source.feed := by
  cases hs.effect with
  | quiet _ hended hr _ hfeed =>
    rw [hended]
    refine (hl.idle hidle (hr ▸ hruns)).imp_right fun ho => ?_
    obtain hfeed | hfeed := hfeed
    · rwa [hfeed]
    · rw [hfeed]; exact h.connect hp (.inr ho)
  | begins hok _ _ _ _ hfeed => exact .inr (hfeed ▸ h.connect hp (.inl hok))
  | @moves _ _ _ p _ _ _ s hm _ _ hr _ _ hfeed =>
    obtain hended | ho := hl.idle hidle (hr ▸ hruns)
    · exact .inl (hs.ended hended)
    · have hmoved := feed_moveLoop files p l.source
      rw [hm] at hmoved
      rw [hfeed, hmoved]
      exact .inr (h.advance _ _ hp ho)
  | stops hstopping => simp [hidle] at hstopping

/-- What neither begins nor ends a call keeps this. -/
theorem Awaited.of_step {P Opened : σ → Prop} (h : Announces files P Opened) (hp : P l.source.feed)
    (hl : Awaited Opened l) (hs : Step files l l') (hstopping : l'.stopping = l.stopping) (hruns : l'.runs = l.runs)
    (hstopped : l'.stopped = l.stopped) : Awaited Opened l' where
  idle hidle := h.opened hp hs (hstopping ▸ hidle) hl
  stopping ha hpos := (hl.stopping (hstopping ▸ ha) (hruns ▸ hpos)).imp_left hs.ended
  stopped hst := hs.ended (hl.stopped (hstopped ▸ hst))

/-- A stop that announces the end, of a source whose feed can be taken down. -/
theorem ended_finishStop {P Opened : σ → Prop} (h : Announces files P Opened) (hp : P l.source.feed) :
    (l.finishStop true).source.ended = true := by
  have hd := h.disconnect hp
  rcases hd' : Feed.disconnect l.source.feed with ⟨r, feed⟩
  rw [hd'] at hd
  cases hd
  simp only [finishStop, Source.finishStop, hd', if_true, sendEnd_snd]

theorem Awaited.step {P Opened : σ → Prop} (h : Announces files P Opened) (hp : P l.source.feed)
    (hl : Awaited Opened l) (hs : Step files l l') : Awaited Opened l' := by
  cases hs with
  | start hidle =>
    have hs : Step files l l.start := .start hidle
    have hstopping : l.start.stopping = none := by simp [start, apply_ite SourceLife.stopping, hidle]
    have hstopped : l.start.stopped = l.stopped := by simp [start, apply_ite SourceLife.stopped]
    exact ⟨fun _ => h.opened hp hs hidle hl, fun ha => by simp [hstopping] at ha,
      fun hst => hs.ended (hl.stopped (hstopped ▸ hst))⟩
  | move => exact hl.of_step h hp (.move l) rfl rfl rfl
  | moveStray hstrays => exact hl.of_step h hp (.moveStray hstrays) rfl rfl rfl
  | halt => exact hl.of_step h hp (.halt l) rfl rfl rfl
  | beginStop hidle =>
    refine ⟨fun hnone => by simp [beginStop] at hnone, fun {announces} ha hpos => ?_, hl.stopped⟩
    refine (hl.idle hidle hpos).imp_right fun ho => ?_
    cases ha
    exact h.endsOnStop _ ho
  | @finishStop announces hstopping =>
    have hs : Step files l (l.finishStop announces) := .finishStop hstopping
    have hended : 0 < l.runs → (l.finishStop announces).source.ended = true := by
      intro hpos
      obtain hended | rfl := hl.stopping hstopping hpos
      · exact hs.ended hended
      · exact ended_finishStop h hp
    refine ⟨fun _ hpos => .inl (hended hpos), fun ha => by simp [finishStop] at ha, fun hst => ?_⟩
    obtain hst | hpos := Bool.or_eq_true_iff.1 hst
    · exact hs.ended (hl.stopped hst)
    · exact hended (of_decide_eq_true hpos)

/-- A source that announces the end when it is stopped has announced it once it has been stopped after a start. -/
theorem Announces.ended_of_stopped {P Opened : σ → Prop} (h : Announces files P Opened) {feed : σ} (hfeed : P feed)
    (hr : Reaches files (fresh feed) l) (hstopped : l.stopped = true) : l.source.ended = true := by
  have hl : Awaited Opened l := by
    clear hstopped
    induction hr with
    | refl => exact ⟨by simp [fresh], by simp [fresh], by simp [fresh]⟩
    | tail hr hs ih => exact ih.step h (h.steady.reaches hfeed hr) hs
  exact hl.stopped hstopped

end SourceLife

end EventPipeline
