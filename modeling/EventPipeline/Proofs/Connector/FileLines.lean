import EventPipeline.Connector.Watch
import EventPipeline.Proofs.Connector.Sinks
import EventPipeline.Proofs.Files.Content
import EventPipeline.Proofs.Json.Symbols
import EventPipeline.Proofs.Text.Lines
import Mathlib

/-!
# What a file sink writes, a file source reads

A file sink adds one line of JSON for each write that returns, and nothing for one that fails, whatever else
is done with the sink in between (`FileSink.added_afterCalls`). JSON text stands on one line and is not
blank at its ends, so the lines of the file are those that were added, and each of them is one event
(`FileSource.lineRecords_flatMap`). A source that reads the file sends these events and then the end
(`Watch.run_file`). Together: the source sends exactly the values of the writes that returned
(`FileSink.run_afterCalls`).
-/

namespace EventPipeline

/-! ### The sink -/

namespace FileSink

/-- The line that a value adds to the file. -/
def lineOf (v : Value) : Text := Json.write .spaced v ++ [.char '\n']

/-- What the file of a sink holds. -/
def content (st : FileSink × Host) : Text := st.2.files.contentAt st.1.path

/-- The file of a sink is there. -/
def HasFile (st : FileSink × Host) : Prop := ∃ t, st.2.files.node? st.1.path = some (.file t)

/-- From one state of a sink to another, a text was added to its file. -/
structure Added (t : Text) (st st' : FileSink × Host) : Prop where
  /-- The file is the same. -/
  path : st'.1.path = st.1.path
  /-- It holds the text after what it held before. -/
  content : content st' = content st ++ t
  /-- It stays. -/
  file : HasFile st → HasFile st'

theorem Added.trans {t u : Text} {a b c : FileSink × Host} (h : Added t a b) (h' : Added u b c) : Added (t ++ u) a c :=
  ⟨h'.path.trans h.path, by rw [h'.content, h.content, List.append_assoc], fun hf => h'.file (h.file hf)⟩

/-- A sink on a host, which has not opened its file. -/
abbrev unopened (path : Path) (host : Host) : FileSink × Host := (⟨path, false⟩, host)

/-- Nothing has been added to the file. -/
abbrev Kept : FileSink × Host → FileSink × Host → Prop := Added []

instance : IsPreorder (FileSink × Host) Kept where
  refl _ := ⟨rfl, (List.append_nil _).symm, id⟩
  trans _ _ _ h h' := h.trans h'

variable {s : FileSink} {host : Host}

/-! #### Opening the file -/

theorem perform_openFile_opened (h : s.opened = true) : perform openFile (s, host) = (.ok ⟨⟩, s, host) := by
  rw [openFile, perform_bind_ok (perform_get (s, host))]
  simp only [h, if_true, perform_pure]

theorem perform_openFile_closed (h : s.opened = false) :
    perform openFile (s, host) =
      match perform (FileTree.makePath s.path.parent >>= fun _ => FileTree.openFile s.path id) host.files with
      | (.ok _, files) => (.ok ⟨⟩, { s with opened := true }, { host with files := files })
      | (.error f, files) => (.error f, s, { host with files := files }) := by
  rw [openFile, perform_bind_ok (perform_get (s, host))]
  simp only [h, Bool.false_eq_true, if_false]
  rw [perform_bind, SinkAction.perform_onFiles]
  rcases perform (FileTree.makePath s.path.parent >>= fun _ => FileTree.openFile s.path id) host.files with
    ⟨_ | _, files⟩ <;> rfl

/-- Opening the file adds nothing to it. -/
theorem kept_openFile : Leads Kept openFile := by
  rintro ⟨s, host⟩
  cases h : s.opened with
  | true =>
    rw [perform_openFile_opened h]
    exact refl_of Kept _
  | false =>
    rw [perform_openFile_closed h]
    rcases FileTree.makePath_openFile_cases s.path.parent s.path id host.files with
      ⟨f, files, hopen, hkept⟩ | ⟨files, hopen, hnode⟩
    · rw [hopen]
      exact ⟨rfl, (hkept.content s.path).trans (List.append_nil _).symm, fun ⟨t, ht⟩ => ⟨t, hkept.found s.path t ht⟩⟩
    · rw [hopen]
      exact ⟨rfl, (FileTree.contentAt_of_node? hnode).trans (List.append_nil _).symm, fun _ => ⟨_, hnode⟩⟩

/-- A file that was opened is there. -/
theorem hasFile_of_openFile {st : FileSink × Host} (ho : s.opened = false)
    (h : perform openFile (s, host) = (.ok ⟨⟩, st)) : HasFile st := by
  rw [perform_openFile_closed ho] at h
  rcases FileTree.makePath_openFile_cases s.path.parent s.path id host.files with
    ⟨f, files, hopen, -⟩ | ⟨files, hopen, hnode⟩
  · rw [hopen] at h
    cases h
  · rw [hopen] at h
    cases h
    exact ⟨_, hnode⟩

/-! #### Writing -/

/-- What a write does once the file is open. -/
def addLine (v : Value) : SinkAction FileSink Unit := do
  let (s, _) ← get
  SinkAction.onFiles (FileTree.extend s.path (Json.write .spaced v ++ "\n"))

theorem perform_write (v : Value) (st : FileSink × Host) :
    perform (Drain.write v) st =
      match perform openFile st with
      | (.ok _, st₁) => perform (addLine v) st₁
      | (.error f, st₁) => (.error f, st₁) := by
  show perform (openFile >>= fun _ => addLine v) st = _
  rw [perform_bind]
  rcases perform openFile st with ⟨_ | _, _⟩ <;> rfl

/-- A line is added as a whole or not at all. -/
theorem added_addLine (v : Value) (st : FileSink × Host) :
    Added (if (perform (addLine v) st).1.isOk then lineOf v else []) st (perform (addLine v) st).2 := by
  obtain ⟨s, host⟩ := st
  rw [addLine, perform_bind_ok (perform_get (s, host))]
  dsimp only
  rw [SinkAction.perform_onFiles, FileTree.extend]
  cases Text.unencodableRun? (Json.write .spaced v ++ "\n") with
  | some run => exact refl_of Kept (s, host)
  | none =>
    dsimp only
    rcases FileTree.openFile_cases s.path (· ++ (Json.write .spaced v ++ "\n")) host.files with
      ⟨f, h⟩ | ⟨files, h, hnode⟩
    · rw [h]
      exact refl_of Kept (s, host)
    · rw [h]
      exact ⟨rfl, FileTree.contentAt_of_node? hnode, fun _ => ⟨_, hnode⟩⟩

/-- **A write that returns adds a line, and one that fails adds nothing.** -/
theorem added_write (v : Value) (st : FileSink × Host) :
    Added (if (perform (Drain.write v) st).1.isOk then lineOf v else []) st (perform (Drain.write v) st).2 := by
  have hopen := kept_openFile st
  rw [perform_write]
  rcases h : perform openFile st with ⟨f | _, st₁⟩ <;> rw [h] at hopen
  · exact hopen
  · exact hopen.trans (added_addLine v st₁)

theorem kept_close (st : FileSink × Host) : Kept st (perform Drain.close st).2 :=
  ⟨rfl, (List.append_nil _).symm, id⟩

/-- **After any calls the file holds a line more for each write that returned.** -/
theorem added_afterCalls (calls : List SinkCall) (st : FileSink × Host) :
    Added ((Drain.accepted calls st).flatMap lineOf) st (Drain.afterCalls calls st) := by
  induction calls generalizing st with
  | nil => exact refl_of Kept st
  | cons call calls ih =>
    cases call with
    | close => exact (kept_close st).trans (ih _)
    | write v =>
      have h := (added_write v st).trans (ih (perform (Drain.write v) st).2)
      rw [Drain.accepted, Drain.call]
      dsimp only
      split_ifs with hok
      · rw [if_pos hok] at h
        exact h
      · rw [if_neg hok] at h
        exact h

/-- If the file can be opened, it is there after the first write, whatever came of that. -/
theorem hasFile_afterCalls {path : Path} {host : Host} (hopen : (perform openFile (unopened path host)).1 = .ok ⟨⟩)
    {calls : List SinkCall} (hwrite : ∃ v, .write v ∈ calls) :
    HasFile (Drain.afterCalls calls (unopened path host)) := by
  induction calls with
  | nil =>
    obtain ⟨v, hv⟩ := hwrite
    cases hv
  | cons call calls ih =>
    cases call with
    | close =>
      obtain ⟨v, hv⟩ := hwrite
      exact ih ⟨v, (List.mem_cons.1 hv).resolve_left SinkCall.noConfusion⟩
    | write v =>
      refine (added_afterCalls calls _).file ?_
      rcases h : perform openFile (unopened path host) with ⟨r, st₁⟩
      obtain rfl : r = .ok ⟨⟩ := by rw [← hopen, h]
      show HasFile (perform (Drain.write v) _).2
      rw [perform_write, h]
      exact (added_addLine v st₁).file (hasFile_of_openFile rfl h)

end FileSink

/-! ### The lines -/

namespace FileSource

open FileSink (lineOf)

theorem strip_lineOf (v : Value) : (lineOf v).strip = Json.write .spaced v := by
  obtain ⟨⟨s, t, hfirst, hs⟩, ⟨u, r, hlast, hr⟩⟩ := Json.framed_writeAt .spaced 0 v
  exact Text.strip_append ⟨s, t, hfirst, Symbol.isBlank_of_isVisible hs⟩ ⟨u, r, hlast, Symbol.isBlank_of_isVisible hr⟩
    (by decide)

/-- A line that a value added is the event of that value. -/
theorem lineRecord?_lineOf {v : Value} (h : v.isJson = true) (number : Nat) :
    lineRecord? number (lineOf v) = some (.event v) := by
  have hread := Json.read_write Json.legible_spaced h
  obtain ⟨s, t, hfirst, -⟩ := (Json.framed_writeAt .spaced 0 v).first
  rw [lineRecord?, strip_lineOf]
  rw [Json.write] at hread ⊢
  rw [hfirst] at hread ⊢
  simp only [hread]

/-- **The records of a file of such lines are the values.** -/
theorem lineRecords_flatMap {vs : List Value} (h : ∀ v ∈ vs, v.isJson = true) :
    lineRecords (vs.flatMap lineOf) = vs.map .event := by
  have hlines : Text.fileLines (vs.flatMap lineOf) = vs.map lineOf := by
    have hcut := @Text.fileLines_flatMap (vs.map (Json.write .spaced)) (by
      simp only [List.mem_map]
      rintro _ ⟨v, -, rfl⟩
      exact Json.onOneLine_write v)
    rw [List.flatMap_map, List.map_map] at hcut
    exact hcut
  rw [lineRecords, hlines]
  generalize 1 = number
  clear hlines
  induction vs generalizing number with
  | nil => rfl
  | cons v vs ih =>
    rw [List.forall_mem_cons] at h
    simp only [List.map_cons, List.zipIdx_cons, List.filterMap_cons, lineRecord?_lineOf h.1 number, ih h.2]

end FileSource

/-! ### The source -/

namespace Watch

variable {path : Path} {files : FileTree}

/-- A watched file source before the next of the events that are left. -/
def reading (path : Path) (files : FileTree) (left : List Value) (signals : List SourceSignal) (seen : Nat) :
    Watch FileSource :=
  ⟨⟨⟨path⟩, true, false, some (.reading (left.map .event)), []⟩, files, signals, seen, false, false, none⟩

/-- A watched file source that has announced the end. -/
def finished (path : Path) (files : FileTree) (signals : List SourceSignal) (seen : Nat) : Watch FileSource :=
  ⟨⟨⟨path⟩, false, true, none, []⟩, files, signals ++ [.finished], seen, false, false, none⟩

/-- In one turn the source sends the next event. -/
theorem turn_reading_cons (v : Value) (left : List Value) (signals : List SourceSignal) (seen fuel : Nat) :
    turn (fuel + 2) (reading path files (v :: left) signals seen) =
      reading path files left (signals ++ [.data v]) (seen + 1) := by
  simp [turn, reading, Source.move, Source.moveLoop, Feed.advance, FileSource.advance, hear, Source.sendData, isData]

/-- With enough turns the owner sees all events that are left, and the end. -/
theorem lookOn_reading (left : List Value) (signals : List SourceSignal) (seen fuel : Nat) {turns : Nat}
    (hturns : left.length < turns) :
    lookOn (fuel + 2) none turns (reading path files left signals seen) =
      finished path files (signals ++ left.map .data) (seen + left.length) := by
  induction left generalizing signals seen turns with
  | nil =>
    obtain ⟨turns, rfl⟩ := Nat.exists_eq_add_one_of_ne_zero (Nat.ne_zero_of_lt hturns)
    rw [lookOn, List.map_nil, List.append_nil]
    cases turns <;> rfl
  | cons v left ih =>
    obtain ⟨turns, rfl⟩ := Nat.exists_eq_add_one_of_ne_zero (Nat.ne_zero_of_lt hturns)
    have hturn := @turn_reading_cons path files v left signals seen fuel
    have hrest := ih (signals ++ [.data v]) (seen + 1) (Nat.lt_of_succ_lt_succ hturns)
    rw [List.append_assoc, List.singleton_append, Nat.add_assoc, Nat.add_comm 1] at hrest
    rw [lookOn]
    exact (congrArg (lookOn (fuel + 2) none turns) hturn).trans hrest

/-- Stopping a source that is over changes nothing. -/
theorem stop_finished (signals : List SourceSignal) (seen : Nat) :
    stop (finished path files signals seen) = (.ok (), finished path files signals seen) := by
  simp [stop, finished, Source.beginStop, Source.finishStop, Feed.endsOnStop, Feed.disconnect]

/-- The first turn begins with the file. -/
theorem turn_head {content : Text} {vs : List Value} (hfile : files.node? path = some (.file content))
    (hrecords : FileSource.recordsOf path content = .ok (vs.map .event)) (fuel : Nat) :
    turn (fuel + 1) ⟨⟨⟨path⟩, true, false, some .head, []⟩, files, [], 0, false, false, none⟩ =
      turn fuel (reading path files vs [] 0) := by
  rw [turn]
  simp [reading, Source.move, Source.moveLoop, Feed.advance, FileSource.advance, hear, hfile, hrecords]

/-- **A run of a source on a file without faults**: it sends the events and the end, and leaves. -/
theorem run_file {content : Text} {vs : List Value} (hfile : files.node? path = some (.file content))
    (hrecords : FileSource.recordsOf path content = .ok (vs.map .event)) {fuel : Nat} (hfuel : vs.length + 3 ≤ fuel) :
    (run fuel false none (ofFeed (FileSource.mk path) files none)).1 =
      ⟨.ok (), false, .ok (), .ok (), vs.map .data ++ [.finished]⟩ := by
  obtain ⟨fuel, rfl⟩ : ∃ k, fuel = k + 3 := ⟨fuel - 3, by omega⟩
  have hstart : (start (fuel + 3) (ofFeed (FileSource.mk path) files none)).2 =
      pass (fuel + 3) (turn (fuel + 2) (reading path files vs [] 0)) :=
    congrArg (pass (fuel + 3)) (turn_head hfile hrecords (fuel + 2))
  -- The first two turns come before the owner looks on.
  have hlook : lookOn (fuel + 3) none (fuel + 3) (start (fuel + 3) (ofFeed (FileSource.mk path) files none)).2 =
      finished path files (vs.map .data) vs.length := by
    rw [hstart]
    cases vs with
    | nil => rfl
    | cons v vs =>
      rw [turn_reading_cons]
      cases vs with
      | nil => rfl
      | cons w vs =>
        have hturn := @turn_reading_cons path files w vs [.data v] 1 (fuel + 1)
        have hpass : pass (fuel + 3) (reading path files (w :: vs) [.data v] 1) =
            turn (fuel + 3) (reading path files (w :: vs) [.data v] 1) := rfl
        rw [List.nil_append, hpass, hturn, lookOn_reading _ _ _ _ (by simp at hfuel; omega)]
        simp [Nat.add_comm 2]
  have hrun : (run (fuel + 3) false none (ofFeed (FileSource.mk path) files none)).1 =
      let w := lookOn (fuel + 3) none (fuel + 3) (start (fuel + 3) (ofFeed (FileSource.mk path) files none)).2
      let w' := (pass (fuel + 3) w).stop
      ⟨.ok (), w.source.running, w'.1, w'.2.stop.1, w'.2.stop.2.signals⟩ := rfl
  have hpass : pass (fuel + 3) (finished path files (vs.map .data) vs.length) =
      finished path files (vs.map .data) vs.length := rfl
  rw [hrun, hlook]
  simp only [hpass, stop_finished]
  rfl

end Watch

/-! ### Both -/

namespace Drain

variable {κ : Type} [Drain κ]

theorem mem_of_mem_accepted {calls : List SinkCall} {st : κ × Host} {v : Value} (h : v ∈ accepted calls st) :
    .write v ∈ calls := by
  induction calls generalizing st with
  | nil => cases h
  | cons call calls ih =>
    cases call with
    | close => exact List.mem_cons_of_mem _ (ih h)
    | write w =>
      rw [accepted] at h
      dsimp only at h
      split_ifs at h
      · rcases List.mem_cons.1 h with rfl | h
        · exact List.mem_cons_self
        · exact List.mem_cons_of_mem _ (ih h)
      · exact List.mem_cons_of_mem _ (ih h)

theorem length_accepted (calls : List SinkCall) (st : κ × Host) : (accepted calls st).length ≤ calls.length := by
  induction calls generalizing st with
  | nil => exact Nat.zero_le _
  | cons call calls ih =>
    cases call with
    | close => exact Nat.le_succ_of_le (ih _)
    | write w =>
      rw [accepted]
      dsimp only
      split_ifs
      · exact Nat.succ_le_succ (ih _)
      · exact Nat.le_succ_of_le (ih _)

end Drain

namespace FileSink

/-- **What was written is read.** At first nothing stands where the file of the sink is to be. A write that fails
leaves the file with the content that it had. If the sink is able to open its file, there is a file after the
calls, one of which is a write. A source that runs on it until it is over sends exactly the values of the
writes that returned, in their order, and then the end. -/
theorem run_afterCalls {path : Path} {host : Host} (hmissing : host.files.IsMissing path)
    (hsuffix : path.suffix.lower ≠ ".csv" ∧ path.suffix.lower ≠ ".parquet") {calls : List SinkCall}
    (hwrite : ∃ v, .write v ∈ calls) (hjson : ∀ v, .write v ∈ calls → v.isJson = true) :
    let start := unopened path host
    let result := (Drain.afterCalls calls start).2.files
    (∀ earlier v later f, calls = earlier ++ .write v :: later →
      let before := Drain.afterCalls earlier start
      (perform (Drain.write v) before).1 = .error f → content (perform (Drain.write v) before).2 = content before) ∧
    ((perform openFile start).1 = .ok ⟨⟩ → ∃ t, result.node? path = some (.file t)) ∧
    ∀ t, result.node? path = some (.file t) → ∀ fuel, calls.length + 3 ≤ fuel →
      (Watch.run fuel false none (.ofFeed (FileSource.mk path) result none)).1 =
        ⟨.ok (), false, .ok (), .ok (), (Drain.accepted calls start).map .data ++ [.finished]⟩ := by
  intro start result
  have hadded := added_afterCalls calls start
  refine ⟨?_, ?_, ?_⟩
  · intro earlier v later f _ before hfail
    have h := (added_write v before).content
    rw [hfail] at h
    exact h.trans (List.append_nil _)
  · intro hopen
    obtain ⟨t, ht⟩ := hasFile_afterCalls hopen hwrite
    rw [hadded.path] at ht
    exact ⟨t, ht⟩
  · intro t ht fuel hfuel
    have hcontent : content start = [] := FileTree.contentAt_of_isMissing hmissing
    have htext : t = (Drain.accepted calls start).flatMap lineOf := by
      rw [← FileTree.contentAt_of_node? ht, ← List.nil_append (List.flatMap _ _), ← hcontent, ← hadded.content,
        content, hadded.path]
    subst htext
    refine Watch.run_file ht ?_ ((Nat.add_le_add_right (Drain.length_accepted _ _) 3).trans hfuel)
    rw [FileSource.recordsOf]
    simp only [hsuffix.1, hsuffix.2, if_false]
    rw [FileSource.lineRecords_flatMap fun v hv => hjson v (Drain.mem_of_mem_accepted hv)]

/-- A text with separators of lines in it, written among others that have no UTF-8 form. -/
theorem run_afterCalls_surrogate :
    let path : Path := ⟨"/w/", ["d", "out.jsonl"]⟩
    let host : Host := ⟨.empty "/w", [], []⟩
    let lone : Value := .array [.text [.char 'a', .surrogate 0]]
    let first : Value := .object [("k", .text "\u2028\u0085\n")]
    let calls : List SinkCall := [.write lone, .close, .write first, .write lone, .close, .close, .write (.int 2)]
    (host.files.IsMissing path ∧ (path.suffix.lower ≠ ".csv" ∧ path.suffix.lower ≠ ".parquet") ∧
      (∃ v, .write v ∈ calls) ∧ ∀ v, .write v ∈ calls → v.isJson = true) ∧
    ∀ fuel, calls.length + 3 ≤ fuel →
      (Watch.run fuel false none
        (.ofFeed (FileSource.mk path) (Drain.afterCalls calls (unopened path host)).2.files none)).1 =
          ⟨.ok (), false, .ok (), .ok (), [.data first, .data (.int 2), .finished]⟩ := by
  intro path host lone first calls
  have hmissing : host.files.IsMissing path := by
    intro l hl
    cases hl
    rfl
  have hsuffix : path.suffix.lower ≠ ".csv" ∧ path.suffix.lower ≠ ".parquet" := by decide
  have hwrite : ∃ v, .write v ∈ calls := ⟨lone, List.mem_cons_self⟩
  have hjson : ∀ v, .write v ∈ calls → v.isJson = true := by
    intro v hv
    simp only [calls, List.mem_cons, SinkCall.write.injEq, reduceCtorEq, false_or, List.not_mem_nil, or_false] at hv
    rcases hv with rfl | rfl | rfl | rfl <;> rfl
  refine ⟨⟨hmissing, hsuffix, hwrite, hjson⟩, fun fuel hfuel => ?_⟩
  obtain ⟨-, hopen, hrun⟩ := run_afterCalls hmissing hsuffix hwrite hjson
  have hopened : (perform openFile (unopened path host)).1 = .ok ⟨⟩ := by
    simp only [path, host]
    cbv
  have haccepted : Drain.accepted calls (unopened path host) = [first, .int 2] := by
    simp only [calls, host, path, lone, first]
    cbv
  obtain ⟨t, ht⟩ := hopen hopened
  rw [hrun t ht fuel hfuel, haccepted]
  rfl

end FileSink

end EventPipeline
