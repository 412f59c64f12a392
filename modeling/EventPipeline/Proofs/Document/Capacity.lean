import EventPipeline.Proofs.Document.Editing
import EventPipeline.Proofs.Engine.Unbuffered

/-!
# A capacity in a document makes no difference

No line of a document makes an aggregate stage, so an engine that runs a document holds nothing back, and the lines
that give a capacity cannot be told from its run: documents that differ in such lines only have definitions that
differ in their capacity only (`definitions_differ`), and then the engines do the same at every act, whatever the
connectors, the source and the sink are and whatever the subscribers do (`capacity_idle`).
-/

namespace EventPipeline

open Engine (Act afterActs inMemory sinkCalls Unspilled)

variable {σ κ : Type}

namespace Document

/-- The line gives a capacity, or starts as if it did. -/
def isCapacityLine (raw : Text) : Bool := startsWith "bufferSize" raw.strip

/-- The lines of a document that do not give a capacity. -/
def otherLines (t : Text) : List Text := t.documentLines.filter fun raw => !isCapacityLine raw

/-! ### Definitions of documents -/

theorem meaningful_otherLines (t : Text) :
    meaningful (otherLines t) = (meaningful t.documentLines).filter fun line => !startsWith "bufferSize" line :=
  meaningful_filter (fun line => !startsWith "bufferSize" line) t.documentLines

/-- Lines that do not start with a word are the same ones in documents that agree in them. -/
theorem filter_of_otherLines {t t' : Text} (h : otherLines t = otherLines t') {q : Text → Bool}
    (hq : ∀ line, q line = true → startsWith "bufferSize" line = false) :
    (meaningful t.documentLines).filter q = (meaningful t'.documentLines).filter q := by
  have hinner : ∀ line, (q line && !startsWith "bufferSize" line) = q line := by
    intro line
    cases hline : q line with
    | false => rfl
    | true => simp [hq line hline]
  have hlines := congrArg (fun ls => (meaningful ls).filter q) h
  simpa only [meaningful_otherLines, List.filter_filter, hinner] using hlines

theorem not_capacity_of_stage (line : Text) (h : isStageLine line = true) : startsWith "bufferSize" line = false := by
  unfold isStageLine at h
  unfold startsWith
  simp only [Bool.or_eq_true, decide_eq_true_eq] at h
  rcases h with h | h <;> rw [h] <;> decide

theorem not_capacity_of_end (role : Role) (line : Text) (h : startsWith role.name line = true) :
    startsWith "bufferSize" line = false := by
  unfold startsWith at h ⊢
  rw [decide_eq_true_eq] at h
  rw [h]
  cases role <;> decide

/-- **Documents that differ in their capacities only** have definitions that do. -/
theorem definitions_differ {now : Int} {settings : Option Settings} {t t' : Text} {p p' : Definition}
    (h : compile now settings t = .ok p) (h' : compile now settings t' = .ok p')
    (hlines : otherLines t = otherLines t') : p' = { p with capacity := p'.capacity } := by
  obtain ⟨hsound, rfl⟩ := compile_ok_iff.1 h
  obtain ⟨hsound', rfl⟩ := compile_ok_iff.1 h'
  have hstages := parts_eq (Command.stage? now) hsound.read hsound'.read (fun _ _ => stage?_isSome)
    (filter_of_otherLines hlines not_capacity_of_stage)
  have hends : ∀ role, (build now settings (commands (meaningful t'.documentLines))).atEnd role =
      (build now settings (commands (meaningful t.documentLines))).atEnd role := by
    intro role
    rw [build, build, atEnd_foldl, atEnd_foldl]
    rw [parts_eq (Command.connector? role) hsound.read hsound'.read (fun _ _ => connector?_isSome)
      (filter_of_otherLines hlines (not_capacity_of_end role))]
  exact Definition.ext (hends .source) (hends .sink) (by simp [build, stages_foldl, hstages]) rfl (by simp [build])

/-- **No document makes an aggregate stage.** -/
theorem plain_of_compile {now : Int} {settings : Option Settings} {t : Text} {p : Definition}
    (h : compile now settings t = .ok p) : ∀ stage ∈ p.stages, stage.Plain := by
  obtain ⟨-, rfl⟩ := compile_ok_iff.1 h
  intro stage hstage
  rw [build, stages_foldl, Definition.ofSettings, Definition.empty, List.nil_append] at hstage
  obtain ⟨c, -, hc⟩ := List.mem_filterMap.1 hstage
  unfold Command.stage? at hc
  split at hc
  all_goals cases hc
  all_goals
    unfold Stage.Plain
    intro hkind
    cases hkind

/-! ### Runs of documents -/

/-- **A capacity cannot be told from a run.** Two documents that differ in the lines of their capacities only make the
same engine. Whatever happens to it, with any connectors and subscribers: it does the same at either capacity, act by
act; its buffer is empty, nothing was spilled, no file or directory was made, and there is nothing to reload. -/
theorem capacity_idle [Feed σ] [Drain κ] (env : Environment σ κ) {now : Int} {settings : Option Settings}
    {t t' : Text} {p p' : Definition} (h : compile now settings t = .ok p) (h' : compile now settings t' = .ok p')
    (hlines : otherLines t = otherLines t') {working : Text} {config : Fields} {options : Option Settings}
    {e : Engine σ κ} (he : Engine.create p.stages working config options = .ok e) (w : World) (locked : Bool)
    (acts : List (Act σ)) :
    let first : Session σ κ := ⟨e, { w with definition := { p with locked := locked } }⟩
    let s := afterActs env acts first
    Engine.create p'.stages working config options = .ok e ∧
      afterActs env acts ⟨e, { w with definition := { p' with locked := locked } }⟩ = s.withCapacity p'.capacity ∧
      (∀ a : Act σ, perform (a.outcome env) (s.withCapacity p'.capacity) =
        ((perform (a.outcome env) s).1, (perform (a.outcome env) s).2.withCapacity p'.capacity)) ∧
      s.engine.buffer = [] ∧ Unspilled first s ∧ perform (Engine.reload env) s = (.ok false, s) := by
  intro first s
  have hp' := definitions_differ h h' hlines
  have hfirst : Engine.Unbuffered first := Engine.unbuffered_create he (plain_of_compile h) _
  obtain ⟨hrun, hn⟩ := Engine.indifferent_afterActs env acts hfirst
  have hs : Engine.Unbuffered s := hfirst.unspilled hrun
  have houtcomes := fun a => (Engine.indifferent_outcome env a s hs).2 p'.capacity
  refine ⟨?_, ?_, houtcomes, hs.buffer, hrun, Engine.perform_reload_nil env hs.pending⟩
  · rw [hp']
    exact he
  · rw [← hn, hp']
    rfl

/-- A filter between ends in memory, at a capacity of one value. -/
def tightDocument : Text := "source memory(\x7b\x7d)\nbufferSize 1\nfilter(event)\nsink memory(\x7b\x7d)"

/-- The same at a capacity of none and then seven values. -/
def widerDocument : Text := "bufferSize 0\nsource memory(\x7b\x7d)\nfilter(event)\nsink memory(\x7b\x7d)\nbufferSize 7"

/-- An engine is started in memory, an event comes, and it is handled. -/
def oneEvent : List (Act MemorySource) :=
  [.start, .goOn .startingSource, .source id (some (.data (.int 1))), .consume, .consume]

/-- What a sink in memory is called with when an engine runs a document. -/
def callsOf (t : Text) : Option (List SinkCall) := do
  let p ← (compile 0 none t).toOption
  let e ← (Engine.create p.stages "/work" [] (some Settings.default)).toOption
  let w : World := ⟨{ p with locked := true }, ⟨.empty "/work", [], []⟩, ⟨[]⟩, 1, []⟩
  return sinkCalls (afterActs inMemory oneEvent ⟨e, w⟩)

/-- The sink gets the event at either capacity. -/
theorem capacity_idle_two_documents :
    callsOf tightDocument = some [.write (.int 1)] ∧ callsOf widerDocument = callsOf tightDocument := by
  have hcalls : callsOf tightDocument = some [.write (.int 1)] := by decide +kernel
  have hcompiles : (compile 0 none widerDocument).isOk = true := by decide +kernel
  refine ⟨hcalls, ?_⟩
  cases h : compile 0 none tightDocument with
  | error f =>
    rw [callsOf, h] at hcalls
    cases hcalls
  | ok p =>
    cases h' : compile 0 none widerDocument with
    | error f =>
      rw [h'] at hcompiles
      cases hcompiles
    | ok p' =>
      cases he : (Engine.create p.stages "/work" [] (some Settings.default) :
          Except Failure (Engine MemorySource (Recorded MemorySink))) with
      | error f =>
        simp [callsOf, h, he, Except.toOption] at hcalls
      | ok e =>
        obtain ⟨he', hrun, -⟩ := capacity_idle inMemory h h' (by decide +kernel) he
          ⟨p, ⟨.empty "/work", [], []⟩, ⟨[]⟩, 1, []⟩ true oneEvent
        simp [callsOf, h, h', he, he', Except.toOption, hrun]
        rfl

end Document

end EventPipeline
