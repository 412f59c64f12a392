import EventPipeline.Connector.Builtin
import EventPipeline.Proofs.Connector.SourceLife
import Mathlib.Data.List.Nodup

/-!
# A source sends what its input holds

Every source works off an input: the events it was given, the records of its file, the answers of its
server, the messages of its topic. What a source *is due* to send is one signal for each item of the
input, and nothing for a message without a value.

There are two ways to work off an input. The loops of a memory, HTTP or Kafka source take its items from one
place, so that all runs together send what is due, in order (`Shares`, `Delivered`). Each loop of a file
source reads the file from its beginning, so that every run does (`Rereads`, `Reread`).

The main statements are `Shares.delivered` and `Rereads.reread`: what one move of a loop must keep to, and what
any life of the source then keeps to.
-/

namespace EventPipeline

namespace SourceLife

variable {σ : Type} {l l' : SourceLife σ}

/-- The signals before the end. -/
def told (l : SourceLife σ) : List SourceSignal := (early l.sent).map Prod.snd

/-- The signals of a run before the end. -/
def toldBy (n : Nat) (l : SourceLife σ) : List SourceSignal :=
  ((early l.sent).filter fun x => decide (x.1 = n)).map Prod.snd

theorem told_of_open (hcourse : Course l.source.ended l.sent) (hopen : l.source.ended = false) :
    l.told = l.signals := by
  rw [hopen] at hcourse
  rw [told, hcourse.early_open, signals]

/-- The signals of a run. -/
def sentBy (n : Nat) (l : SourceLife σ) : List SourceSignal :=
  (l.sent.filter fun x => decide (x.1 = n)).map Prod.snd

theorem sentBy_of_sent {signal : Option SourceSignal} {n : Nat} (h : l'.sent = l.sent ++ signal.toList.map (n, ·))
    (m : Nat) : l'.sentBy m = l.sentBy m ++ if n = m then signal.toList else [] := by
  rw [sentBy, h, List.filter_append, List.map_append]
  congr 1
  cases signal with
  | none => simp
  | some x => by_cases hnm : n = m <;> simp [hnm]

theorem toldBy_of_open (hcourse : Course l.source.ended l.sent) (hopen : l.source.ended = false) (n : Nat) :
    l.toldBy n = l.sentBy n := by
  rw [hopen] at hcourse
  rw [toldBy, hcourse.early_open, sentBy]

/-! ### One move -/

/-- A move takes the next signal that is due and sends it, or it sends nothing. The end comes when nothing is due. -/
inductive Serves : List SourceSignal → Move → List SourceSignal → Prop where
  | data {v due} : Serves (.data v :: due) (.data v) due
  | error {f due} : Serves (.error f :: due) (.error f) due
  | finish {due'} : Serves [] .finish due'
  | skip {due} : Serves due .skip due
  | pause {k due} : Serves due (.pause k) due
  | wait {due} : Serves due .wait due
  | leave {due} : Serves due .leave due

/-- What comes of such a move before the end has been announced: the signal, and whether it is the end. -/
inductive Delivers (due due' : List SourceSignal) : Option SourceSignal → Bool → Prop where
  | nothing (h : due' = due) : Delivers due due' none false
  | signal {x : SourceSignal} (hx : x ≠ .finished) (h : due = x :: due') : Delivers due due' (some x) false
  | finished (h : due = []) : Delivers due due' (some .finished) true

theorem Delivers.of_open {due due' : List SourceSignal} {signal : Option SourceSignal}
    (h : Delivers due due' signal false) : due = signal.toList ++ due' := by
  cases h with
  | nothing h => exact h.symm
  | signal _ h => exact h

theorem Delivers.of_closed {due due' : List SourceSignal} {signal : Option SourceSignal}
    (h : Delivers due due' signal true) : due = [] := by
  cases h with
  | finished h => exact h

section Feed

variable [Feed σ] {files : FileTree}

theorem Serves.moveLoop {due due' : List SourceSignal} {p : Progress} {s : Source σ}
    (h : Serves due (Feed.advance files s.running p s.feed).move due') (hended : s.ended = false) :
    Delivers due due' (s.moveLoop files p).1 (s.moveLoop files p).2.2.2.ended := by
  rcases s with ⟨sfeed, running, ended, loop, strays⟩
  cases hended
  rcases ha : Feed.advance files running p sfeed with ⟨move, feed, next⟩
  simp only [ha] at h
  simp only [Source.moveLoop, ha]
  cases h with
  | data | error => exact .signal (by simp) rfl
  | finish => exact .finished rfl
  | skip | pause | wait | leave => exact .nothing rfl

theorem early_of_closed (hcourse : Course l.source.ended l.sent) (hclosed : l.source.ended = true)
    (hs : Step files l l') :
    early l'.sent = early l.sent := by
  rw [hclosed] at hcourse
  obtain ⟨n, signal, hsent, -⟩ := hs.effect.sends
  rw [hsent, hcourse.early_closed]

theorem early_of_announced (hcourse : Course l.source.ended l.sent) (hopen : l.source.ended = false)
    (hs : Step files l l') (hclosed : l'.source.ended = true) : early l'.sent = l.sent := by
  obtain ⟨n, signal, hsent, hsends⟩ := hs.effect.sends
  rw [hopen] at hcourse hsends
  rw [hclosed] at hsends
  cases hsends
  rw [hsent]
  exact hcourse.early_finished n

/-! ### One input for all runs -/

/-- All loops of a source take what is due from one place. -/
structure Shares (files : FileTree) (P : σ → Prop) (due : σ → List SourceSignal) : Prop where
  steady : Steady files P
  connect {s} : P s → due (Feed.connect s).2 = due s
  advance {s} (running p) : P s →
    Serves (due s) (Feed.advance files running p s).move (due (Feed.advance files running p s).feed)
  disconnect {s} : P s → due (Feed.disconnect s).2 = due s

theorem Shares.and {P Q : σ → Prop} {due : σ → List SourceSignal} (h : Shares files P due) (hQ : Steady files Q) :
    Shares files (fun s => P s ∧ Q s) due where
  steady := h.steady.and hQ
  connect hs := h.connect hs.1
  advance running p hs := h.advance running p hs.1
  disconnect hs := h.disconnect hs.1

/-- What a step does before the end has been announced: it delivers, or a stop announces the end. -/
theorem Shares.delivers {P : σ → Prop} {due : σ → List SourceSignal} (h : Shares files P due)
    (hp : P l.source.feed) (hopen : l.source.ended = false) (hs : Step files l l') :
    ∃ n signal, l'.sent = l.sent ++ signal.toList.map (n, ·) ∧
      (Delivers (due l.source.feed) (due l'.source.feed) signal l'.source.ended ∨
        signal = some .finished ∧ l'.source.ended = true ∧ l.stopping = some true) := by
  cases hs.effect with
  | quiet hsent hended _ _ hfeed =>
    refine ⟨0, none, hsent.trans (List.append_nil _).symm, .inl ?_⟩
    rw [hended, hopen]
    obtain hfeed | hfeed := hfeed
    · exact .nothing (by rw [hfeed])
    · exact .nothing (by rw [hfeed, h.connect hp])
  | begins _ hsent hended _ _ hfeed =>
    refine ⟨0, none, hsent.trans (List.append_nil _).symm, .inl ?_⟩
    rw [hended, hopen]
    exact .nothing (by rw [hfeed, h.connect hp])
  | @moves _ _ n p signal _ _ s hm hsent hended _ _ _ hfeed =>
    have hdelivers := (h.advance l.source.running p hp).moveLoop hopen
    rw [← feed_moveLoop, hm] at hdelivers
    exact ⟨n, signal, hsent, .inl (by rw [hended, hfeed]; exact hdelivers)⟩
  | @stops announces signal hstopping hsends hsignal hsent _ _ hfeed =>
    refine ⟨l.runs, signal, hsent, ?_⟩
    obtain rfl | ⟨rfl, rfl⟩ := hsignal
    · rw [hsends.of_nothing, hopen, hfeed, h.disconnect hp]
      exact .inl (.nothing rfl)
    · exact .inr ⟨rfl, hsends.of_finished, hstopping⟩

/-- A source has sent what was due from its input, in order. -/
structure Delivered (due : σ → List SourceSignal) (input : List SourceSignal) (l : SourceLife σ) : Prop where
  /-- Before the end, what has been sent and what is due make up the input. -/
  rest : l.source.ended = false → l.signals ++ due l.source.feed = input
  /-- What was sent before the end is a part of the input after the end too. -/
  told : l.told <+: input

theorem Delivered.step {P : σ → Prop} {due : σ → List SourceSignal} {input : List SourceSignal}
    (h : Shares files P due) (hp : P l.source.feed) (hcourse : Course l.source.ended l.sent)
    (hl : Delivered due input l) (hs : Step files l l') : Delivered due input l' := by
  cases hended : l.source.ended with
  | true =>
    refine ⟨fun hopen => absurd (hs.ended hended) (by simp [hopen]), ?_⟩
    rw [SourceLife.told, early_of_closed hcourse hended hs]
    exact hl.told
  | false =>
    have hrest := hl.rest hended
    obtain ⟨n, signal, hsent, hdelivers⟩ := h.delivers hp hended hs
    have hrest' : l'.source.ended = false → l'.signals ++ due l'.source.feed = input := by
      intro hopen
      rw [hopen] at hdelivers
      obtain hdelivers | ⟨-, hclosed, -⟩ := hdelivers
      · simpa [signals, hsent, hdelivers.of_open, Function.comp_def] using hrest
      · cases hclosed
    refine ⟨hrest', ?_⟩
    cases hended' : l'.source.ended with
    | false =>
      rw [told_of_open (hcourse.step hs) hended', ← hrest' hended']
      exact List.prefix_append ..
    | true =>
      rw [SourceLife.told, early_of_announced hcourse hended hs hended']
      exact ⟨_, hrest⟩

theorem Shares.delivered {P : σ → Prop} {due : σ → List SourceSignal} (h : Shares files P due) {feed : σ}
    (hfeed : P feed) (hr : Reaches files (fresh feed) l) : Delivered due (due feed) l := by
  induction hr with
  | refl => exact ⟨fun _ => rfl, List.nil_prefix⟩
  | tail hr hs ih => exact ih.step h (h.steady.reaches hfeed hr) (course_of_reaches hr) hs

/-- If stopping a source does not announce the end, all that was due is sent before the end. -/
theorem Shares.told_of_ended {P : σ → Prop} {due : σ → List SourceSignal} (h : Shares files P due)
    (hquiet : ∀ running s, P s → Feed.endsOnStop running s = false) {feed : σ} (hfeed : P feed)
    (hr : Reaches files (fresh feed) l) (hended : l.source.ended = true) : l.told = due feed := by
  induction hr with
  | refl => cases hended
  | @tail l l' hr hs ih =>
    have hcourse := course_of_reaches hr
    cases hopen : l.source.ended with
    | true =>
      rw [SourceLife.told, early_of_closed hcourse hopen hs]
      exact ih hopen
    | false =>
      have hrest := (h.delivered hfeed hr).rest hopen
      rw [SourceLife.told, early_of_announced hcourse hopen hs hended]
      obtain ⟨n, signal, -, hdelivers | ⟨-, -, hstopping⟩⟩ := h.delivers (h.steady.reaches hfeed hr) hopen hs
      · rw [hended] at hdelivers
        rwa [hdelivers.of_closed, List.append_nil] at hrest
      · exact absurd hstopping (stopping_of_reaches h.steady hquiet hfeed hr)

end Feed

/-! ### An input for each run -/

/-- Loops and signals carry the number of the run that they belong to. -/
structure Numbered (l : SourceLife σ) : Prop where
  /-- Every loop belongs to a run. -/
  runs : ∀ x ∈ l.loops, x.1 ≤ l.runs
  /-- No two loops belong to the same run. -/
  apart : (l.loops.map Prod.fst).Nodup
  /-- Runs to come have sent nothing. -/
  later : ∀ n, l.runs < n → l.sentBy n = []

/-- A step with which no run begins. -/
theorem Numbered.of_sent {signal : Option SourceSignal} {n : Nat} (hl : Numbered l) (hn : n ≤ l.runs)
    (hsent : l'.sent = l.sent ++ signal.toList.map (n, ·)) (hruns : l'.runs = l.runs)
    (hloops : (l'.loops.map Prod.fst).Sublist (l.loops.map Prod.fst)) : Numbered l' where
  runs x hx := by
    obtain ⟨y, hy, heq⟩ := List.mem_map.1 (hloops.subset (List.mem_map_of_mem hx))
    rw [hruns, ← heq]
    exact hl.runs y hy
  apart := hl.apart.sublist hloops
  later m hm := by
    rw [hruns] at hm
    rw [sentBy_of_sent hsent, hl.later m hm, if_neg (by omega), List.append_nil]

theorem Numbered.of_begin (hl : Numbered l) (hsent : l'.sent = l.sent) (hruns : l'.runs = l.runs + 1)
    (hloops : l'.loops = l.loops ++ [(l.runs + 1, .head)]) : Numbered l' where
  runs x hx := by
    rw [hloops] at hx
    rw [hruns]
    obtain hx | hx := List.mem_append.1 hx
    · exact (hl.runs x hx).trans (Nat.le_succ _)
    · rw [List.mem_singleton.1 hx]
  apart := by
    rw [hloops, List.map_append, List.nodup_append]
    refine ⟨hl.apart, List.nodup_singleton _, fun n hn m hm => ?_⟩
    obtain ⟨x, hx, rfl⟩ := List.mem_map.1 hn
    have hle := hl.runs x hx
    have hm' : m = l.runs + 1 := List.mem_singleton.1 hm
    omega
  later n hn := by
    rw [sentBy, hsent]
    exact hl.later n (by omega)

/-- The other loops belong to other runs. -/
theorem Numbered.run_ne {before after : List (Nat × Progress)} {n : Nat} {p : Progress} {x : Nat × Progress}
    (hl : Numbered l) (hloops : l.loops = before ++ (n, p) :: after) (hx : x ∈ before ++ after) : n ≠ x.1 := by
  have hapart := hl.apart
  rw [hloops, List.map_append, List.map_cons, List.nodup_middle, List.nodup_cons, ← List.map_append] at hapart
  have hmem : x.1 ∈ (before ++ after).map Prod.fst := List.mem_map_of_mem hx
  rintro rfl
  exact hapart.1 hmem

/-- Each run of a source has sent what was due from its input, in order. -/
structure Reread (ahead : Progress → List SourceSignal) (l : SourceLife σ) : Prop where
  /-- Before the end, what a run has sent and what is ahead of its loop make up the input. -/
  rest : l.source.ended = false → ∀ x ∈ l.loops, l.sentBy x.1 ++ ahead x.2 = ahead .head
  /-- What a run sent before the end is a part of the input after the end too. -/
  told : ∀ n, l.toldBy n <+: ahead .head
  /-- A run that announces the end has sent all that was due from the input. -/
  all : ∀ n, (n, .finished) ∈ l.sent → l.toldBy n = ahead .head

variable {ahead : Progress → List SourceSignal}

theorem Reread.sentBy_prefix (hl : Reread ahead l) (hcourse : Course l.source.ended l.sent)
    (hopen : l.source.ended = false) (n : Nat) : l.sentBy n <+: ahead .head :=
  toldBy_of_open hcourse hopen n ▸ hl.told n

/-- As long as the end has not been announced, it is enough to look at the signals. -/
theorem Reread.of_open (hcourse : Course l.source.ended l.sent) (hopen : l.source.ended = false)
    (hrest : ∀ x ∈ l.loops, l.sentBy x.1 ++ ahead x.2 = ahead .head)
    (hsentBy : ∀ n, l.sentBy n <+: ahead .head) : Reread ahead l where
  rest _ := hrest
  told n := by
    rw [toldBy_of_open hcourse hopen]
    exact hsentBy n
  all n hn := by
    rw [hopen] at hcourse
    obtain ⟨hnot⟩ := hcourse
    exact absurd rfl (hnot _ hn)

theorem mem_moved {before after : List (Nat × Progress)} {n : Nat} {next : Option Progress} {x : Nat × Progress} :
    x ∈ before ++ next.toList.map (n, ·) ++ after ↔ x ∈ before ++ after ∨ ∃ q, next = some q ∧ x = (n, q) := by
  cases next with
  | none => simp
  | some q =>
    simp only [Option.toList_some, List.map_cons, List.map_nil, List.mem_append, List.mem_singleton, Option.some.injEq]
    grind

/-- A loop sends what is next ahead of it. -/
theorem Reread.of_delivered {before after : List (Nat × Progress)} {n : Nat} {p : Progress}
    {signal : Option SourceSignal} {next : Option Progress} {due' : List SourceSignal}
    (hl : Reread ahead l) (hnumbered : Numbered l) (hcourse : Course l.source.ended l.sent)
    (hopen : l.source.ended = false) (hcourse' : Course l'.source.ended l'.sent) (hopen' : l'.source.ended = false)
    (hsent : l'.sent = l.sent ++ signal.toList.map (n, ·))
    (hloops : l.loops = before ++ (n, p) :: after) (hloops' : l'.loops = before ++ next.toList.map (n, ·) ++ after)
    (hdue : ahead p = signal.toList ++ due') (hnext : ∀ q, next = some q → ahead q = due') : Reread ahead l' := by
  have hdone : l'.sentBy n ++ due' = ahead .head := by
    calc l'.sentBy n ++ due' = l.sentBy n ++ ahead p := by
          rw [sentBy_of_sent hsent, if_pos rfl, List.append_assoc, hdue]
      _ = ahead .head := hl.rest hopen (n, p) (by simp [hloops])
  have hothers : ∀ m, n ≠ m → l'.sentBy m = l.sentBy m := by
    intro m hnm
    rw [sentBy_of_sent hsent, if_neg hnm, List.append_nil]
  refine .of_open hcourse' hopen' (fun x hx => ?_) fun m => ?_
  · rw [hloops', mem_moved] at hx
    obtain hx | ⟨q, rfl, rfl⟩ := hx
    · rw [hothers _ (hnumbered.run_ne hloops hx)]
      refine hl.rest hopen x ?_
      rw [hloops]
      simp only [List.mem_append, List.mem_cons] at hx ⊢
      exact hx.imp_right .inr
    · rwa [hnext q rfl]
  · by_cases hnm : n = m
    · exact hnm ▸ ⟨due', hdone⟩
    · rw [hothers m hnm]
      exact hl.sentBy_prefix hcourse hopen m

variable [Feed σ] {files : FileTree}

theorem Numbered.step (hl : Numbered l) (hs : Step files l l') : Numbered l' := by
  cases hs.effect with
  | quiet hsent _ hruns hloops =>
    have hnothing : l'.sent = l.sent ++ (none : Option SourceSignal).toList.map (0, ·) :=
      hsent.trans (List.append_nil _).symm
    exact hl.of_sent (Nat.zero_le _) hnothing hruns (hloops.map _)
  | begins _ hsent _ hruns hloops => exact hl.of_begin hsent hruns hloops
  | @moves before after n p _ _ next _ _ hsent _ hruns hloops hloops' =>
    have hmem : (n, p) ∈ l.loops := by
      rw [hloops]
      exact List.mem_append_right _ List.mem_cons_self
    have hsub : (l'.loops.map Prod.fst).Sublist (l.loops.map Prod.fst) := by
      rw [hloops, hloops']
      cases next <;> simp
    exact hl.of_sent (hl.runs _ hmem) hsent hruns hsub
  | stops _ _ _ hsent hruns hloops => exact hl.of_sent le_rfl hsent hruns (by rw [hloops])

theorem numbered_of_reaches {feed : σ} (hr : Reaches files (fresh feed) l) : Numbered l := by
  induction hr with
  | refl => exact ⟨by simp [fresh, loops, Source.ofFeed], by simp [fresh, loops, Source.ofFeed], fun _ _ => rfl⟩
  | tail _ hs ih => exact ih.step hs

/-- Nothing counts that is sent after the end. -/
theorem Reread.of_closed (hl : Reread ahead l) (hcourse : Course l.source.ended l.sent)
    (hclosed : l.source.ended = true) (hs : Step files l l') : Reread ahead l' where
  rest hopen := absurd (hs.ended hclosed) (by simp [hopen])
  told n := by
    rw [toldBy, early_of_closed hcourse hclosed hs]
    exact hl.told n
  all n hn := by
    rw [toldBy, early_of_closed hcourse hclosed hs]
    refine hl.all n ?_
    obtain ⟨m, signal, hsent, hsends⟩ := hs.effect.sends
    rw [hclosed] at hsends
    rw [hsent] at hn
    refine (List.mem_append.1 hn).resolve_right fun hmem => ?_
    generalize l'.source.ended = ended' at hsends
    cases hsends <;> simp at hmem

/-- A run announces the end when it has sent all that was due. -/
theorem Reread.of_announced {n : Nat} (hl : Reread ahead l) (hcourse : Course l.source.ended l.sent)
    (hopen : l.source.ended = false) (hs : Step files l l') (hclosed : l'.source.ended = true)
    (hsent : l'.sent = l.sent ++ [(n, .finished)]) (hall : l.sentBy n = ahead .head) : Reread ahead l' where
  rest hopen' := absurd hclosed (by simp [hopen'])
  told m := by
    rw [toldBy, early_of_announced hcourse hopen hs hclosed]
    exact hl.sentBy_prefix hcourse hopen m
  all m hm := by
    obtain rfl : m = n := by
      rw [hopen] at hcourse
      obtain ⟨hnot⟩ := hcourse
      rw [hsent] at hm
      obtain hm | hm := List.mem_append.1 hm
      · exact absurd rfl (hnot _ hm)
      · simpa using hm
    rw [toldBy, early_of_announced hcourse hopen hs hclosed]
    exact hall

/-- Each loop of a source takes what is due from the beginning on. -/
structure Rereads (files : FileTree) (P : σ → Prop) (ahead : Progress → List SourceSignal) : Prop where
  steady : Steady files P
  advance {s} (running p) : P s → (Feed.advance files running p s).move = .leave ∨
    Serves (ahead p) (Feed.advance files running p s).move (ahead (Feed.advance files running p s).progress)
  endsOnStop (running s) : P s → Feed.endsOnStop running s = false

/-- What a move of a loop does before the end has been announced. -/
theorem Rereads.delivers {P : σ → Prop} (h : Rereads files P ahead)
    {s s' : Source σ} {p : Progress} {signal : Option SourceSignal} {state : LoopState} {next : Option Progress}
    (hp : P s.feed) (hopen : s.ended = false) (hm : s.moveLoop files p = (signal, state, next, s')) :
    ∃ due', Delivers (ahead p) due' signal s'.ended ∧ ∀ q, next = some q → ahead q = due' := by
  rcases ha : Feed.advance files s.running p s.feed with ⟨move, feed, place⟩
  have hserves := h.advance s.running p hp
  rw [ha] at hserves
  obtain rfl | hserves := hserves
  · simp only [Source.moveLoop, ha, Prod.mk.injEq] at hm
    obtain ⟨rfl, -, rfl, rfl⟩ := hm
    rw [hopen]
    exact ⟨ahead p, .nothing rfl, fun q hq => by cases hq⟩
  · refine ⟨ahead place, ?_, fun q hq => ?_⟩
    · have hdelivers := Serves.moveLoop (by rw [ha]; exact hserves) hopen
      rwa [hm] at hdelivers
    · have hnext : next = none ∨ next = some place := by
        simp only [Source.moveLoop, ha] at hm
        cases move <;> simp_all
      obtain rfl | rfl := hnext
      · cases hq
      · cases hq
        rfl

theorem Reread.step {P : σ → Prop} (h : Rereads files P ahead) (hp : P l.source.feed) (hnumbered : Numbered l)
    (hcourse : Course l.source.ended l.sent) (hstopping : l.stopping ≠ some true)
    (hl : Reread ahead l) (hs : Step files l l') : Reread ahead l' := by
  cases hopen : l.source.ended with
  | true => exact hl.of_closed hcourse hopen hs
  | false =>
    have hcourse' := hcourse.step hs
    -- a step that sends nothing, after which every loop has what it had ahead of it
    have hstill : l'.sent = l.sent → l'.source.ended = l.source.ended →
        (∀ x ∈ l'.loops, l.sentBy x.1 ++ ahead x.2 = ahead .head) → Reread ahead l' := by
      intro hsent hended hrest
      have hsame : ∀ n, l'.sentBy n = l.sentBy n := fun n => by rw [sentBy, hsent, sentBy]
      refine .of_open hcourse' (hended.trans hopen) (fun x hx => ?_) fun n => ?_
      · rw [hsame]
        exact hrest x hx
      · rw [hsame]
        exact hl.sentBy_prefix hcourse hopen n
    cases hs.effect with
    | quiet hsent hended _ hloops => exact hstill hsent hended fun x hx => hl.rest hopen x (hloops.subset hx)
    | begins _ hsent hended _ hloops =>
      refine hstill hsent hended fun x hx => ?_
      rw [hloops] at hx
      obtain hx | hx := List.mem_append.1 hx
      · exact hl.rest hopen x hx
      · obtain rfl := List.mem_singleton.1 hx
        rw [hnumbered.later _ (Nat.lt_succ_self _), List.nil_append]
    | stops hannounces hsends hsignal hsent _ hloops =>
      obtain rfl | ⟨-, rfl⟩ := hsignal
      · exact hstill (hsent.trans (List.append_nil _)) hsends.of_nothing fun x hx => hl.rest hopen x (hloops ▸ hx)
      · exact absurd hannounces hstopping
    | @moves before after n p signal state next s hm hsent hended _ hloops hloops' =>
      obtain ⟨due', hdelivers, hnext⟩ := h.delivers hp hopen hm
      rw [← hended] at hdelivers
      cases hopen' : l'.source.ended with
      | true =>
        have hsends := sends_moveLoop files p l.source
        rw [hm, ← hended, hopen, hopen'] at hsends
        cases hsends
        rw [hopen'] at hdelivers
        have hrest := hl.rest hopen (n, p) (by simp [hloops])
        rw [hdelivers.of_closed, List.append_nil] at hrest
        exact hl.of_announced hcourse hopen hs hopen' hsent hrest
      | false =>
        rw [hopen'] at hdelivers
        exact hl.of_delivered hnumbered hcourse hopen hcourse' hopen' hsent hloops hloops' hdelivers.of_open hnext

theorem Rereads.reread {P : σ → Prop} (h : Rereads files P ahead) {feed : σ} (hfeed : P feed)
    (hr : Reaches files (fresh feed) l) : Reread ahead l := by
  induction hr with
  | refl => exact ⟨by simp [fresh, loops, Source.ofFeed], fun _ => List.nil_prefix, by simp [fresh]⟩
  | tail hr hs ih =>
    exact ih.step h (h.steady.reaches hfeed hr) (numbered_of_reaches hr) (course_of_reaches hr)
      (stopping_of_reaches h.steady h.endsOnStop hfeed hr) hs

end SourceLife

end EventPipeline
