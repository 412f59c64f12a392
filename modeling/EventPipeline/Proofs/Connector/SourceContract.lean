import EventPipeline.Connector.Builtin
import EventPipeline.Proofs.Connector.SourceInput
import Mathlib.Logic.Function.Iterate

/-!
# What the built-in sources send

Every source works off an input: the events that it was given, the records of its file, the answers of its
server, the messages of its topic. What it *is due* to send is one signal for each item of the input
(`BuiltinSource.due`), and nothing for a message without a value.

A memory, an HTTP and a Kafka source take the items from one place, a file source reads its file anew in each
run. With that, the laws of `SourceLife` give the main statement, `sends_what_is_due`: over the whole life of
a source, whatever its owner and its subscribers do with it, the end is announced at most once and by the right
sources at the right time, and before the end, what is due is sent in order, one signal for each item.

A memory and an HTTP source rest after each item. An interval that has no value in double precision makes
the rest fail, which ends the loop with one error more (`rest_fails`).
-/

namespace EventPipeline

/-! ### Rests -/

/-- An interval that a rest can take: a number with a value in double precision. -/
def isInterval : Value → Bool
  | .number n => n.toFloat.isOk
  | _ => false

theorem div_float (n : Number) (y : Binary64) :
    n.div (.float y) = (do let x ← n.toFloat; if y.isZero then .error .divisionByZero else return x.div y) := by
  cases n <;> rfl

/-- Every number with a value in double precision has a thousandth. -/
theorem thousandth {n : Number} (h : n.toFloat.isOk = true) :
    ∃ x, n.div (.float (Binary64.ofDecimal false 1 3)) = .ok x := by
  have hthousand : (Binary64.ofDecimal false 1 3).isZero = false := by decide +kernel
  generalize Binary64.ofDecimal false 1 3 = thousand at *
  rw [div_float]
  cases hn : n.toFloat with
  | error e => simp [hn, Except.isOk, Except.toBool] at h
  | ok x => exact ⟨x.div thousand, by simp [hthousand, bind, Except.bind, pure, Except.pure]⟩

theorem isOk_restOf {v : Value} (h : isInterval v = true) : (restOf v).isOk = true := by
  cases v with
  | number n =>
    obtain ⟨x, hx⟩ := thousandth h
    unfold restOf
    dsimp only
    rw [hx]
    dsimp only [Except.isOk, Except.toBool]
  | _ => cases h

theorem restThen_eq {σ : Type} {interval : Value} (h : isInterval interval = true) (feed : σ) (next : Progress) :
    ∃ timed, restThen interval feed next = ⟨.pause (.rest timed), feed, next⟩ := by
  have hok := isOk_restOf h
  unfold restThen
  cases hr : restOf interval with
  | ok timed => exact ⟨timed, rfl⟩
  | error f => simp [hr, Except.isOk, Except.toBool] at hok

/-! ### What is due -/

/-- The signal for an outcome. -/
def SourceSignal.ofOutcome : Except Failure Value → SourceSignal
  | .ok v => .data v
  | .error f => .error f

/-- The signal for a record of a file. -/
def Record.signal : Record → SourceSignal
  | .event v => .data v
  | .fault f => .error f

/-- The signals for the events that are left. -/
def MemorySource.due (s : MemorySource) : List SourceSignal := (s.events.drop s.index).map .data

/-- The signals for the answers to come. -/
def HttpSource.due (s : HttpSource) : List SourceSignal :=
  (s.answers.getD []).map fun a => .ofOutcome (s.outcomeOf a)

/-- The signal for a step of a client; none for a message without a value. -/
def KafkaSource.signal? (s : KafkaSource) : KafkaStep → Option SourceSignal
  | .message m =>
    match Kafka.eventOf m with
    | .null => none
    | v => some (.data v)
  | .broken words => some (.error (s.consumeFailure words))
  | .accept | .startBroken _ => none

/-- The signals for the steps to come. -/
def KafkaSource.due (s : KafkaSource) : List SourceSignal := (s.steps.getD []).filterMap s.signal?

/-- The records of the file, if they can be read. -/
def FileSource.records (files : FileTree) (s : FileSource) : List Record :=
  match files.node? s.path with
  | some (.file content) =>
    match recordsOf s.path content with
    | .ok records => records
    | .error _ => []
  | _ => []

/-- The signals for the records that are ahead of a loop. -/
def FileSource.ahead (files : FileTree) (s : FileSource) : Progress → List SourceSignal
  | .head => (s.records files).map Record.signal
  | .reading rest | .resting (some rest) => rest.map Record.signal
  | .asked | .resting none => []

namespace BuiltinSource

/-- The signals for the items of the input that are left. -/
def due (files : FileTree) : BuiltinSource → List SourceSignal
  | memory s => s.due
  | file s => s.ahead files .head
  | http s => s.due
  | kafka s => s.due

/-- A rest between two items takes no failure, and a file is there and can be read. -/
def Ready (files : FileTree) : BuiltinSource → Prop
  | memory s => isInterval s.interval = true
  | file s => ∃ content records, files.node? s.path = some (.file content) ∧
      FileSource.recordsOf s.path content = .ok records
  | http s => isInterval s.interval = true
  | kafka _ => True

end BuiltinSource

/-! ### One move of each kind -/

open SourceLife

theorem MemorySource.serves_advance {s : MemorySource} (h : isInterval s.interval = true) (running : Bool)
    (p : Progress) : Serves s.due (s.advance running p).move (s.advance running p).feed.due := by
  have hhead : Serves s.due (s.advance running .head).move (s.advance running .head).feed.due := by
    cases running with
    | false => exact .leave
    | true =>
      simp only [advance, if_true]
      cases hv : s.events[s.index]? with
      | none =>
        have hdue : s.due = [] := by simp [due, List.drop_eq_nil_of_le (List.getElem?_eq_none_iff.1 hv)]
        rw [hdue]
        exact .finish
      | some v =>
        obtain ⟨hlt, rfl⟩ := List.getElem?_eq_some_iff.1 hv
        rw [due, List.drop_eq_getElem_cons hlt]
        exact .data
  cases p with
  | resting =>
    obtain ⟨timed, hrest⟩ := restThen_eq h s .head
    simp only [advance, hrest]
    exact .pause
  | _ => exact hhead

theorem HttpSource.serves_advance {s : HttpSource} (h : isInterval s.interval = true) (running : Bool)
    (p : Progress) : Serves s.due (s.advance running p).move (s.advance running p).feed.due := by
  have hhead : Serves s.due (s.advance running .head).move (s.advance running .head).feed.due := by
    cases running with
    | false => exact .leave
    | true => exact .pause
  cases p with
  | resting =>
    obtain ⟨timed, hrest⟩ := restThen_eq h s .head
    simp only [advance, hrest]
    exact .pause
  | asked =>
    cases hanswers : s.answers with
    | none =>
      simp only [advance, hanswers]
      exact .wait
    | some answers =>
      cases answers with
      | nil =>
        simp only [advance, hanswers]
        exact .wait
      | cons a later =>
        have hdue : s.due = .ofOutcome (s.outcomeOf a) :: due { s with answers := some later } := by
          rw [due, hanswers]
          rfl
        simp only [advance, hanswers]
        cases ho : s.outcomeOf a with
        | ok v =>
          rw [hdue, ho]
          exact .data
        | error f =>
          rw [hdue, ho]
          exact .error
  | _ => exact hhead

theorem KafkaSource.serves_advance (s : KafkaSource) (running : Bool) (p : Progress) :
    Serves s.due (s.advance running p).move (s.advance running p).feed.due := by
  have hhead : Serves s.due (s.advance running .head).move (s.advance running .head).feed.due := by
    cases running with
    | false => exact .leave
    | true => exact .pause
  cases p with
  | resting => exact .pause
  | asked =>
    cases hsteps : s.steps with
    | none =>
      simp only [advance, hsteps]
      exact .wait
    | some steps =>
      cases steps with
      | nil =>
        simp only [advance, hsteps]
        exact .wait
      | cons step later =>
        have hdue : s.due = (s.signal? step).toList ++ due { s with steps := some later } := by
          rw [due, hsteps]
          cases hsignal : s.signal? step <;> simp [hsignal, due] <;> rfl
        rw [hdue]
        cases step with
        | message m =>
          simp only [advance, hsteps, signal?]
          cases Kafka.eventOf m with
          | null => exact .skip
          | _ => exact .data
        | broken words =>
          simp only [advance, hsteps, signal?]
          exact .error
        | accept | startBroken words =>
          simp only [advance, hsteps, signal?]
          exact .skip
  | _ => exact hhead

theorem FileSource.serves_advance {files : FileTree} {s : FileSource} {content : Text} {records : List Record}
    (hfile : files.node? s.path = some (.file content)) (hrecords : recordsOf s.path content = .ok records)
    (running : Bool) (p : Progress) : (s.advance files running p).move = .leave ∨
      Serves (s.ahead files p) (s.advance files running p).move (s.ahead files (s.advance files running p).progress) := by
  cases p with
  | head =>
    refine .inr ?_
    simp only [advance, hfile, hrecords, ahead, FileSource.records]
    exact .skip
  | asked => exact .inl rfl
  | reading rest =>
    cases rest with
    | nil => exact .inr .finish
    | cons r rest =>
      cases r with
      | fault f => exact .inr .error
      | event v =>
        cases running with
        | false => exact .inl rfl
        | true => exact .inr .data
  | resting rest =>
    cases rest with
    | none => exact .inl rfl
    | some rest => exact .inr .pause

/-! ### What each kind keeps -/

theorem MemorySource.interval_advance (s : MemorySource) (running : Bool) (p : Progress) :
    (s.advance running p).feed.interval = s.interval := by
  unfold advance restThen
  split <;> (repeat' split) <;> rfl

theorem HttpSource.interval_advance (s : HttpSource) (running : Bool) (p : Progress) :
    (s.advance running p).feed.interval = s.interval := by
  unfold advance restThen
  split <;> (repeat' split) <;> rfl

theorem HttpSource.move_advance (s : HttpSource) (running : Bool) (p : Progress) :
    (s.advance running p).move ≠ .finish := by
  unfold advance restThen
  split <;> (repeat' split) <;> simp

theorem KafkaSource.consumer_advance (s : KafkaSource) (running : Bool) (p : Progress) :
    (s.advance running p).feed.consumer = s.consumer := by
  unfold advance
  split <;> (repeat' split) <;> rfl

theorem FileSource.feed_advance (files : FileTree) (s : FileSource) (running : Bool) (p : Progress) :
    (s.advance files running p).feed = s := by
  unfold advance
  (repeat' split) <;> rfl

theorem HttpSource.openSession_kept (s : HttpSource) :
    s.openSession.2.due = s.due ∧ s.openSession.2.interval = s.interval := by
  unfold openSession
  (repeat' split) <;> exact ⟨rfl, rfl⟩

theorem HttpSource.closeSession_kept (s : HttpSource) :
    s.closeSession.due = s.due ∧ s.closeSession.interval = s.interval := by
  unfold closeSession
  split <;> exact ⟨rfl, rfl⟩

/-- A failed start takes a step of the client, but none for which a signal is due. -/
theorem KafkaSource.due_openConsumer (s : KafkaSource) : s.openConsumer.2.due = s.due := by
  rcases s with ⟨topic, options, _ | _ | ⟨step, later⟩, consumer, calls⟩
  · rfl
  · rfl
  · cases step <;> rfl

theorem KafkaSource.due_closeConsumer (s : KafkaSource) : s.closeConsumer.due = s.due := by
  unfold closeConsumer
  split <;> rfl

theorem KafkaSource.consumer_openConsumer (s : KafkaSource) (h : s.openConsumer.1.isOk = true ∨ s.consumer = true) :
    s.openConsumer.2.consumer = true := by
  unfold openConsumer at h ⊢
  cases hsteps : s.steps with
  | none =>
    rw [hsteps] at h
    obtain h | h := h
    · cases h
    · exact h
  | some steps =>
    rw [hsteps] at h
    simpa [or_comm] using h

/-! ### The laws of each kind -/

namespace BuiltinSource

variable {files : FileTree}

/-- All loops of the source take the items of its input from one place, and it can rest between two items. -/
def IsShared : BuiltinSource → Prop
  | memory s => isInterval s.interval = true
  | http s => isInterval s.interval = true
  | kafka _ => True
  | file _ => False

theorem steady_isShared : Steady files IsShared where
  connect {s} h := by
    cases s with
    | memory | file => exact h
    | http s => exact (congrArg isInterval s.openSession_kept.2).trans h
    | kafka => trivial
  advance {s} running p h := by
    cases s with
    | memory s => exact (congrArg isInterval (s.interval_advance running p)).trans h
    | file => exact h
    | http s => exact (congrArg isInterval (s.interval_advance running p)).trans h
    | kafka => trivial
  disconnect {s} h := by
    cases s with
    | memory | file => exact h
    | http s => exact (congrArg isInterval s.closeSession_kept.2).trans h
    | kafka => trivial

theorem shares : Shares files IsShared (due files) where
  steady := steady_isShared
  connect {s} h := by
    cases s with
    | memory => rfl
    | file => exact absurd h id
    | http s => exact s.openSession_kept.1
    | kafka s => exact s.due_openConsumer
  advance {s} running p h := by
    cases s with
    | memory s => exact s.serves_advance h running p
    | file => exact absurd h id
    | http s => exact s.serves_advance h running p
    | kafka s => exact s.serves_advance running p
  disconnect {s} h := by
    cases s with
    | memory => rfl
    | file => exact absurd h id
    | http s => exact s.closeSession_kept.1
    | kafka s => exact s.due_closeConsumer

theorem rereads {s : FileSource} {content : Text} {records : List Record}
    (hfile : files.node? s.path = some (.file content)) (hrecords : FileSource.recordsOf s.path content = .ok records) :
    Rereads files (· = file s) (s.ahead files) where
  steady :=
    { connect := by rintro _ rfl; rfl
      advance := by
        rintro _ running p rfl
        exact congrArg file (s.feed_advance files running p)
      disconnect := by rintro _ rfl; rfl }
  advance := by
    rintro _ running p rfl
    exact FileSource.serves_advance hfile hrecords running p
  endsOnStop := by
    rintro _ _ rfl
    rfl

theorem steady_memory : Steady files fun s => ∃ m, s = memory m where
  connect := by rintro _ ⟨m, rfl⟩; exact ⟨_, rfl⟩
  advance := by rintro _ _ _ ⟨m, rfl⟩; exact ⟨_, rfl⟩
  disconnect := by rintro _ ⟨m, rfl⟩; exact ⟨_, rfl⟩

theorem steady_http : Steady files fun s => ∃ h, s = http h where
  connect := by rintro _ ⟨h, rfl⟩; exact ⟨_, rfl⟩
  advance := by rintro _ _ _ ⟨h, rfl⟩; exact ⟨_, rfl⟩
  disconnect := by rintro _ ⟨h, rfl⟩; exact ⟨_, rfl⟩

theorem announces_kafka : Announces files (fun s => ∃ k, s = kafka k) fun s => ∃ k, s = kafka k ∧ k.consumer = true where
  steady :=
    { connect := by rintro _ ⟨k, rfl⟩; exact ⟨_, rfl⟩
      advance := by rintro _ _ _ ⟨k, rfl⟩; exact ⟨_, rfl⟩
      disconnect := by rintro _ ⟨k, rfl⟩; exact ⟨_, rfl⟩ }
  connect := by
    rintro _ ⟨k, rfl⟩ hopen
    refine ⟨_, rfl, k.consumer_openConsumer (hopen.imp_right ?_)⟩
    rintro ⟨_, ⟨⟩, hc⟩
    exact hc
  advance := by
    rintro _ running p - ⟨k, rfl, hc⟩
    exact ⟨_, rfl, (k.consumer_advance running p).trans hc⟩
  endsOnStop := by
    rintro _ running ⟨k, rfl, hc⟩
    show (running || k.consumer) = true
    rw [hc, Bool.or_true]
  disconnect := by
    rintro _ ⟨k, rfl⟩
    rfl

/-! ### The whole life of a source -/

/-- **Built-in sources send what is due.** Take a source of a built-in type whose rests do not fail, or whose file is
there and can be read. Whatever its owner and its subscribers do with it:

* the end is announced at most once, and no event follows it;
* an HTTP source never announces it, a Kafka source has done so once it has been stopped after a start, a memory
  source does so after all its events, and a run of a file source after all records of the file;
* before the end, each run of a file source has sent one signal for each record that it has passed, in order;
* before the end, a source of another type has sent one signal for each item that it has taken, in order. -/
theorem sends_what_is_due {source : BuiltinSource} (hready : source.Ready files) {l : SourceLife BuiltinSource}
    (hl : Reaches files (fresh source) l) :
    (l.signals.count .finished ≤ 1 ∧
      ∀ before after, l.signals = before ++ .finished :: after → ∀ v, .data v ∉ after) ∧
    (∀ s, source = http s → .finished ∉ l.signals) ∧
    (∀ s, source = kafka s → l.stopped = true → l.signals.count .finished = 1) ∧
    (∀ s, source = memory s → .finished ∈ l.signals → l.told = source.due files) ∧
    (∀ s, source = file s → ∀ n, l.toldBy n <+: source.due files ∧
      ((n, .finished) ∈ l.sent → l.toldBy n = source.due files) ∧
      (.finished ∉ l.signals → ∀ p, (n, p) ∈ l.loops → l.toldBy n ++ s.ahead files p = source.due files)) ∧
    ((∀ s, source ≠ file s) → l.told <+: source.due files ∧
      (.finished ∉ l.signals → l.told ++ l.source.feed.due files = source.due files)) := by
  have hcourse := course_of_reaches hl
  have hended := ended_iff hcourse
  have hopen : .finished ∉ l.signals → l.source.ended = false := fun h => by simpa [hended] using h
  refine ⟨⟨?_, ?_⟩, ?_, ?_, ?_, ?_, ?_⟩
  · rw [signals, hcourse.count]
    exact Bool.toNat_le _
  · intro before after h v hv
    obtain ⟨f, hf⟩ := hcourse.of_finished h _ hv
    cases hf
  · rintro s rfl
    rw [hended, not_ended_of_reaches steady_http ?_ ?_ ⟨s, rfl⟩ hl]
    · exact Bool.false_ne_true
    · rintro _ _ ⟨h, rfl⟩
      rfl
    · rintro running p _ ⟨h, rfl⟩
      exact h.move_advance running p
  · rintro s rfl hstopped
    rw [signals, hcourse.count, announces_kafka.ended_of_stopped ⟨s, rfl⟩ hl hstopped]
    rfl
  · rintro s rfl hfinished
    refine (shares.and steady_memory).told_of_ended ?_ ⟨hready, s, rfl⟩ hl (hended.1 hfinished)
    rintro _ _ ⟨-, m, rfl⟩
    rfl
  · rintro s rfl n
    obtain ⟨content, records, hfile, hrecords⟩ := hready
    have hread := (rereads hfile hrecords).reread rfl hl
    refine ⟨hread.told n, hread.all n, fun hnot p hp => ?_⟩
    rw [toldBy_of_open hcourse (hopen hnot)]
    exact hread.rest (hopen hnot) _ hp
  · intro hnot
    have hshared : source.IsShared := by
      cases source with
      | file s => exact absurd rfl (hnot s)
      | _ => exact hready
    have hdelivered := shares.delivered hshared hl
    refine ⟨hdelivered.told, fun hfinished => ?_⟩
    rw [told_of_open hcourse (hopen hfinished)]
    exact hdelivered.rest (hopen hfinished)

/-- A file with two events and, between them, a line that is no JSON. -/
def notes : FileTree := { FileTree.empty "/w" with nodes := [(["notes"], .file "1\n?\n2\n")] }

/-- A source that reads this file. -/
def reader : FileSource := ⟨⟨"/w/", ["notes"]⟩⟩

/-- The source is started, makes moves, is halted after the first event, is started again and reads on to the end. -/
def readTwice : SourceLife BuiltinSource :=
  (move notes)^[8] (start ((move notes)^[2] (start (fresh (file reader)))).halt)

theorem reaches_moves (l : SourceLife BuiltinSource) (n : Nat) : Reaches files l ((move files)^[n] l) := by
  induction n generalizing l with
  | zero => exact .refl
  | succ n ih => exact .head (.move l) (ih _)

/-- A run that was halted, and one that reads to the end while the loop of the first is still there. -/
theorem sends_what_is_due_halted :
    readTwice.strays.length = 1 ∧ ((file reader).due notes).length = 3 ∧
      readTwice.toldBy 1 <+: (file reader).due notes ∧ readTwice.toldBy 2 = (file reader).due notes := by
  have hready : (file reader).Ready notes := ⟨_, _, rfl, rfl⟩
  have hreach : Reaches notes (fresh (file reader)) readTwice :=
    (((reaches_moves _ 2).head (.start rfl)).tail (.halt _)).trans ((reaches_moves _ 8).head (.start (by decide +kernel)))
  obtain ⟨-, -, -, -, hfile, -⟩ := sends_what_is_due hready hreach
  exact ⟨by decide +kernel, by decide +kernel, (hfile reader rfl 1).1, (hfile reader rfl 2).2.1 (by decide +kernel)⟩

/-- A source that polls a server and is to rest for a time that has no value in double precision. -/
def poller : HttpSource :=
  ⟨"http://x", "GET", [], .int (Int.ofNat (Nat.pow 10 400)), .int 30000, some [.body 200 (.int 1)], false, []⟩

/-- **A rest can fail.** After the event for the one answer, the source sends an error for which there is no item, and
its loop ends. -/
theorem rest_fails : ∃ l, Reaches notes (fresh (http poller)) l ∧
    l.signals = [.data (.int 1), .error (.plain .overflow "int too large to convert to float")] ∧
    (http poller).due notes = [.data (.int 1)] ∧ ¬ l.told <+: (http poller).due notes ∧ l.source.running = false :=
  ⟨_, (reaches_moves _ 3).head (.start rfl), by decide +kernel, by decide +kernel, by decide +kernel, by decide +kernel⟩

end BuiltinSource

end EventPipeline
