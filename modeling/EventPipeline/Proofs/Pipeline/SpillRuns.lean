import EventPipeline.Proofs.Pipeline.Discarding

/-!
# Pushes, spills, reloads and discards in any order

The state of a buffer that spills is in memory, in a list of records and in files, and four operations change it:
values are pushed, the oldest ones are spilled, those of the oldest record are reloaded, and all records are
discarded. `Regular s t` says how the three parts fit together in a state `t` that a buffer has got into from `s`. One
lemma for each operation shows that it stays so (`Regular.push`, `Regular.spill`, `Regular.reload`,
`Regular.discard`), whether or not a spill succeeds, and `run_regular` puts them together.

Nothing is assumed of the directory but that the names of files that are still to be given are not taken: spill files
that stood there at first stay.
-/

namespace EventPipeline

/-- A file stands at a place. -/
def FileTree.HasFile (fs : FileTree) (l : Location) : Prop := ∃ t, fs.nodeAt? l = some (.file t)

/-- A file stands at the place of a path. -/
def FileTree.StandsAt (fs : FileTree) (p : Path) : Prop := ∃ l, PlaceOf p l ∧ fs.HasFile l

namespace Spill

/-! ### Values that can be written -/

/-- A value that can be told from its JSON text, all of whose texts have a UTF-8 form. -/
def Writable (v : Value) : Prop := v.isJson = true ∧ v.symbols.isEncodable = true

theorem isEncodable_symbolsOfItems {batch : List Value} (h : ∀ v ∈ batch, Writable v) :
    (Value.symbolsOfItems batch).isEncodable = true := by
  induction batch with
  | nil => rfl
  | cons v vs ih =>
    have hv := (h v List.mem_cons_self).2
    have hvs := ih fun v' hv' => h v' (List.mem_cons_of_mem v hv')
    rw [Text.isEncodable] at hv hvs ⊢
    rw [Value.symbolsOfItems, List.all_append, hv, hvs, Bool.and_self]

/-- The text of values that can be written has a UTF-8 form. -/
theorem isEncodable_write {batch : List Value} (h : ∀ v ∈ batch, Writable v) :
    (Json.write .spaced (.array batch)).isEncodable = true := by
  apply (Json.drawn_write (.array batch)).isEncodable
  rw [Value.symbols]
  exact isEncodable_symbolsOfItems h

/-! ### What is done -/

/-- What can be done with a buffer. -/
inductive Deed where
  /-- Adds a value. -/
  | push (v : Value)
  /-- Spills what is above a capacity. -/
  | spill (capacity : Nat)
  /-- Puts the values of the oldest record back. -/
  | reload
  /-- Removes all pending files. -/
  | discard

/-- The state after a deed, whether or not it succeeded. -/
def Deed.after : Deed → SpillState → SpillState
  | push v, s => { s with buffer := s.buffer.push v }
  | spill capacity, s => (perform (spillIfNeeded capacity) s).2
  | reload, s => (perform Spill.reload s).2
  | discard, s => (discardAll.run s).2

/-- The record that a deed makes. -/
def Deed.made? : Deed → SpillState → Option SpillRecord
  | spill capacity, s => (perform (spillIfNeeded capacity) s).1.toOption.join
  | _, _ => Option.none

/-- The state after some deeds. -/
def run (ds : List Deed) (s : SpillState) : SpillState := ds.foldl (fun s d => d.after s) s

/-- The records that deeds make, in order. -/
def made : List Deed → SpillState → List SpillRecord
  | [], _ => []
  | d :: ds, s => (d.made? s).toList ++ made ds (d.after s)

theorem run_concat (ds : List Deed) (d : Deed) (s : SpillState) : run (ds ++ [d]) s = d.after (run ds s) := by
  rw [run, List.foldl_append, List.foldl_cons, List.foldl_nil, run]

theorem made_concat (ds : List Deed) (d : Deed) (s : SpillState) :
    made (ds ++ [d]) s = made ds s ++ (d.made? (run ds s)).toList := by
  induction ds generalizing s with
  | nil => simp [made, run]
  | cons d' ds ih => rw [List.cons_append, made, made, ih, List.append_assoc, run, run, List.foldl_cons]

/-! ### How the parts fit together -/

/-- No file stands at the places of files that are still to be named. -/
def Unused (s : SpillState) : Prop :=
  ∀ n, s.nextName ≤ n → ∀ l, FileTree.PlaceOf (filePath s.spill.directory n) l → ¬ s.files.HasFile l

/-- A batch that a record tells of: as many values as it counts, and all of them can be written. -/
structure Fills (r : SpillRecord) (batch : List Value) : Prop where
  /-- The record counts the values. -/
  count : batch.length = r.count
  /-- There are some. -/
  positive : 0 < r.count
  /-- They can be written. -/
  writable : ∀ v ∈ batch, Writable v

/-- A state `t` that a buffer has got into from `s`. -/
structure Regular (s t : SpillState) : Prop where
  /-- The directory is the same. -/
  directory : t.spill.directory = s.spill.directory
  /-- Names have been given in order. -/
  later : s.nextName ≤ t.nextName
  /-- The records are in order. -/
  sequence : t.spill.InSequence
  /-- Each record has a file with the values that it tells of. -/
  stored : ∃ bs, Stored s.spill.directory t bs ∧ List.Forall₂ Fills t.spill.pending bs
  /-- The values in the buffer can be written. -/
  buffer : ∀ v ∈ t.buffer, Writable v
  /-- No record has a file that stood there at first. -/
  named : ∀ r ∈ t.spill.pending, ∃ n, s.nextName ≤ n ∧ r.path = filePath s.spill.directory n
  /-- The files are those that stood there at first and those of the records. -/
  files : ∀ l, t.files.HasFile l ↔ s.files.HasFile l ∨ PlaceIn t.spill.pending l

/-- The file of a record is found at its place. -/
theorem locate_of_holds {fs : FileTree} {r : SpillRecord} {batch : List Value} (h : Holds fs r batch) {l : Location}
    (hl : FileTree.PlaceOf r.path l) : fs.locate r.path = .ok l := by
  obtain ⟨l', hl', -⟩ := FileTree.node?_eq_some_iff.1 h
  have hsame := (FileTree.site_of_locate hl').symm.trans hl
  rw [hl', Option.some.inj hsame]

/-- Where the same files stand, a place has one or not as before. -/
theorem hasFile_congr {S : Location → Prop} {fs fs' : FileTree} (h : FileTree.SameFilesBut S fs fs') {l : Location}
    (hl : ¬ S l) : fs'.HasFile l ↔ fs.HasFile l := exists_congr fun t => h.file l t hl

theorem regular_self {s : SpillState} (hpending : s.spill.pending = []) (hbuffer : ∀ v ∈ s.buffer, Writable v) :
    Regular s s := by
  refine ⟨rfl, le_rfl, ⟨?_, ?_⟩, ⟨[], stored_nil hpending, ?_⟩, hbuffer, ?_, fun l => ?_⟩
  all_goals simp [hpending, PlaceIn]

namespace Regular

variable {s t : SpillState}

theorem push (h : Regular s t) {v : Value} (hv : Writable v) : Regular s { t with buffer := t.buffer.push v } := by
  obtain ⟨bs, hstored, hfills⟩ := h.stored
  refine ⟨h.directory, h.later, h.sequence, ⟨bs, ?_, hfills⟩, fun v' hv' => ?_, h.named, h.files⟩
  · exact ⟨hstored.directory, hstored.holds, hstored.named, hstored.distinct⟩
  · rcases List.mem_append.1 hv' with hv' | hv'
    · exact h.buffer v' hv'
    · rw [List.mem_singleton.1 hv']
      exact hv

/-- What is about to be spilled can be written. -/
theorem writable_overflow (h : Regular s t) (capacity : Int) : ∀ v ∈ overflow capacity t, Writable v :=
  fun v hv => h.buffer v (List.mem_of_mem_take hv)

/-- Each record has a file with the values that it tells of. -/
theorem exists_batch (h : Regular s t) {r : SpillRecord} (hr : r ∈ t.spill.pending) :
    ∃ b, Holds t.files r b ∧ Fills r b := by
  obtain ⟨bs, hstored, hfills⟩ := h.stored
  have hboth := List.Forall₂.mp (S := fun r b => (∃ b, Holds t.files r b ∧ Fills r b) ∧ Fills r b)
    (fun r b hholds hfill => ⟨⟨b, hholds, hfill⟩, hfill⟩) hstored.holds hfills
  exact ((List.forall₂_and_left _ _).1 hboth).1 r hr

/-- No file stood at first where a record has its own. -/
theorem not_hasFile (h : Regular s t) (hs : Unused s) {l : Location} (hl : PlaceIn t.spill.pending l) :
    ¬ s.files.HasFile l := by
  obtain ⟨r, hr, hl⟩ := hl
  obtain ⟨n, hn, hpath⟩ := h.named r hr
  rw [hpath] at hl
  exact hs n hn l hl

/-- A spill that fails changes no file, since the values can be written. -/
theorem of_failed_write (h : Regular s t) {capacity : Int} {f : Failure} {files : FileTree}
    (hwrite : perform (writeBatch (filePath t.spill.directory t.nextName) (overflow capacity t)) t.files =
      (.error f, files)) : Regular s (afterFailure t files) := by
  have hencodable := isEncodable_write (h.writable_overflow capacity)
  obtain ⟨bs, hstored, hfills⟩ := h.stored
  have hstored' : Stored s.spill.directory (afterFailure t files) bs := by
    rw [← h.directory] at hstored ⊢
    exact hstored.afterFailure hwrite
  refine ⟨h.directory, Nat.le_succ_of_le h.later, ⟨h.sequence.pending, h.sequence.next⟩,
    ⟨bs, hstored', hfills⟩, h.buffer, h.named, fun l => ?_⟩
  exact (hasFile_congr (FileTree.sameFiles_of_failed_save hencodable hwrite) not_false).trans (h.files l)

/-- A spill makes one file, which its record tells of. -/
theorem of_write (h : Regular s t) {capacity : Nat} (hcapacity : (capacity : Int) < t.buffer.length) {files : FileTree}
    (hwrite : perform (writeBatch (filePath t.spill.directory t.nextName) (overflow capacity t)) t.files =
      (.ok ⟨⟩, files)) (hsequence : (afterSpill capacity t files).spill.InSequence) :
    Regular s (afterSpill capacity t files) := by
  obtain ⟨bs, hstored, hfills⟩ := h.stored
  have hstored' : Stored s.spill.directory (afterSpill capacity t files) (bs ++ [overflow capacity t]) := by
    rw [← h.directory] at hstored ⊢
    exact hstored.afterSpill hwrite
  have hlength : 0 < (overflow capacity t).length := by
    rw [overflow, Buffer.peekFront, List.length_take]
    omega
  have hnew : Fills (nextRecord t (overflow capacity t).length) (overflow capacity t) :=
    ⟨rfl, hlength, h.writable_overflow capacity⟩
  refine ⟨h.directory, Nat.le_succ_of_le h.later, hsequence, ⟨_, hstored', List.rel_append hfills (.cons hnew .nil)⟩,
    fun v hv => h.buffer v (List.mem_of_mem_drop hv), fun r hr => ?_, fun l => ?_⟩
  · rcases List.mem_append.1 hr with hr | hr
    · exact h.named r hr
    · exact ⟨t.nextName, h.later, by rw [List.mem_singleton.1 hr, ← h.directory]; rfl⟩
  · have hnode := FileTree.node?_of_save hwrite
    have hsame := FileTree.sameFilesBut_save (filePath t.spill.directory t.nextName)
      (Json.write .spaced (.array (overflow capacity t))) t.files
    rw [← writeBatch, hwrite] at hsame
    have hplaces : PlaceIn (afterSpill capacity t files).spill.pending l ↔
        PlaceIn t.spill.pending l ∨ FileTree.PlaceOf (filePath t.spill.directory t.nextName) l := by
      simp only [PlaceIn, Spill.afterSpill, List.mem_append, List.mem_singleton, or_and_right, exists_or, exists_eq_left]
      rfl
    rw [hplaces]
    by_cases hl : FileTree.PlaceOf (filePath t.spill.directory t.nextName) l
    · refine iff_of_true ?_ (.inr (.inr hl))
      obtain ⟨l', hl', hnode⟩ := FileTree.node?_eq_some_iff.1 hnode
      obtain rfl := Option.some.inj ((FileTree.site_of_locate hl').symm.trans hl)
      exact ⟨_, hnode⟩
    · rw [or_iff_left hl]
      exact (hasFile_congr hsame hl).trans (h.files l)

theorem spill (h : Regular s t) (capacity : Nat) : Regular s (perform (spillIfNeeded capacity) t).2 := by
  have hsequence := keepsSequence_spillIfNeeded capacity t h.sequence
  rcases spillIfNeeded_cases capacity t with ⟨-, hrun⟩ | ⟨-, f, files, hwrite, hrun⟩ | ⟨hcapacity, files, hwrite, hrun⟩
  all_goals rw [hrun] at hsequence ⊢
  · exact h
  · exact h.of_failed_write hwrite
  · exact h.of_write hcapacity hwrite hsequence

theorem reload (h : Regular s t) (hs : Unused s) : Regular s (perform Spill.reload t).2 := by
  obtain ⟨bs, hstored, hfills⟩ := h.stored
  have hholds := hstored.holds
  rcases hp : t.spill.pending with _ | ⟨r, rest⟩
  · rw [perform_reload_nil hp]
    exact h
  rw [hp] at hholds hfills
  obtain ⟨b, bs, hb, -, rfl⟩ := List.forall₂_cons_left_iff.1 hholds
  obtain ⟨hfill, hfills⟩ := List.forall₂_cons.1 hfills
  rw [perform_reload_of_holdsArray hp (hb.holdsArray fun v hv => (hfill.writable v hv).1)]
  have hpending : (afterReload t r b).spill.pending = rest := by rw [afterReload, hp, List.tail_cons]
  have hmem : ∀ r' ∈ rest, r' ∈ t.spill.pending := by
    intro r' hr'
    simp [hp, hr']
  have hsequence := h.sequence.pending
  have hdistinct := hstored.distinct
  have hnamed := h.named
  rw [hp] at hsequence hdistinct hnamed
  refine ⟨h.directory, h.later, ⟨?_, ?_⟩, ⟨bs, hstored.afterReload hp, ?_⟩, fun v hv => ?_, ?_, fun l => ?_⟩
  · rw [hpending]
    exact (List.pairwise_cons.1 hsequence).2
  · rw [hpending]
    exact fun r' hr' => h.sequence.next r' (hmem r' hr')
  · rw [hpending]
    exact hfills
  · exact (List.mem_append.1 hv).elim (hfill.writable v) (h.buffer v)
  · rw [hpending]
    exact fun r' hr' => h.named r' (hmem r' hr')
  · rw [hpending]
    by_cases hl : FileTree.PlaceOf r.path l
    · -- its file is gone, and no other has its place
      refine iff_of_false ?_ (not_or.2 ⟨?_, ?_⟩)
      · rintro ⟨content, hcontent⟩
        exact unlink_gone (locate_of_holds hb hl) content hcontent
      · apply h.not_hasFile hs
        rw [hp, placeIn_cons]
        exact .inl hl
      · exact not_placeIn_rest (fun r' hr' => (hnamed r' hr').imp fun _ h => h.2) hdistinct hl
    · have hsame := hasFile_congr (FileTree.sameFilesBut_unlink r.path t.files) hl
      refine (hsame.trans (h.files l)).trans (or_congr_right ?_)
      rw [hp, placeIn_cons, or_iff_right hl]

theorem discard (h : Regular s t) (hs : Unused s) : Regular s (discardAll.run t).2 := by
  have hfiles : ∀ l, (discardAll.run t).2.files.HasFile l ↔ s.files.HasFile l := by
    intro l
    by_cases hl : PlaceIn t.spill.pending l
    · refine iff_of_false ?_ (h.not_hasFile hs hl)
      obtain ⟨r, hr, hl⟩ := hl
      obtain ⟨b, hb, -⟩ := h.exists_batch hr
      rintro ⟨content, hcontent⟩
      exact discardAll_gone hr (locate_of_holds hb hl) content hcontent
    · rw [hasFile_congr (sameFilesBut_discardAll t) hl, h.files l, or_iff_left hl]
  obtain ⟨files, hrun⟩ := discardAll_eq t
  rw [hrun] at hfiles ⊢
  refine ⟨h.directory, h.later, ⟨List.Pairwise.nil, by simp⟩, ⟨[], ⟨h.directory, .nil, by simp, by simp⟩, .nil⟩,
    h.buffer, by simp, fun l => ?_⟩
  simp [hfiles l, PlaceIn]

theorem after (h : Regular s t) (hs : Unused s) (d : Deed) (hd : ∀ v, d = .push v → Writable v) :
    Regular s (d.after t) := by
  cases d with
  | push v => exact h.push (hd v rfl)
  | spill capacity => exact h.spill capacity
  | reload => exact h.reload hs
  | discard => exact h.discard hs

/-- The spill files of the directory are those that stood there at first and those of the records. -/
theorem standsAt_child (h : Regular s t) {name : Text} (hname : fileLead <+: name) :
    t.files.StandsAt (s.spill.directory.child name) ↔
      s.files.StandsAt (s.spill.directory.child name) ∨
        ∃ r ∈ t.spill.pending, r.path = s.spill.directory.child name := by
  have hup : name ≠ Path.up := by
    rintro rfl
    exact absurd hname (by decide)
  constructor
  · rintro ⟨l, hl, hfile⟩
    rcases (h.files l).1 hfile with hfirst | ⟨r, hr, hl'⟩
    · exact .inl ⟨l, hl, hfirst⟩
    · obtain ⟨n, -, hpath⟩ := h.named r hr
      refine .inr ⟨r, hr, ?_⟩
      by_contra hne
      rw [hpath] at hl' hne
      refine FileTree.site_child_ne (fileName_ne_up n) hup (fun heq => hne ?_) hl' hl
      rw [filePath, heq]
  · rintro (⟨l, hl, hfirst⟩ | ⟨r, hr, hpath⟩)
    · exact ⟨l, hl, (h.files l).2 (.inl hfirst)⟩
    · obtain ⟨b, hb, -⟩ := h.exists_batch hr
      obtain ⟨l, hl, hnode⟩ := FileTree.node?_eq_some_iff.1 hb
      rw [hpath] at hl
      exact ⟨l, FileTree.site_of_locate hl, _, hnode⟩

/-- What a spill does that returns. -/
theorem spill_returned (h : Regular s t) {capacity : Nat} {r : Option SpillRecord} {u : SpillState}
    (hrun : perform (spillIfNeeded capacity) t = (.ok r, u)) :
    u.buffer.length = min t.buffer.length capacity ∧ (r.isSome ↔ capacity < t.buffer.length) ∧
      ∀ r', r = some r' → HoldsArray u.files r' (t.buffer.take (t.buffer.length - capacity)) := by
  rcases spillIfNeeded_cases capacity t with ⟨hle, h'⟩ | ⟨-, f, files, -, h'⟩ | ⟨hlt, files, hwrite, h'⟩
  all_goals rw [hrun] at h'
  all_goals cases h'
  · refine ⟨by omega, ?_, by simp⟩
    simp
    omega
  · have htake : (t.buffer.length - capacity : Int).toNat = t.buffer.length - capacity := by omega
    have hholds : Holds files (nextRecord t (overflow capacity t).length) (overflow capacity t) :=
      FileTree.node?_of_save hwrite
    refine ⟨?_, iff_of_true rfl (by omega), ?_⟩
    · rw [afterSpill, Buffer.dropFront, List.length_drop]
      omega
    · rintro r' ⟨⟩
      rw [← htake]
      exact hholds.holdsArray fun v hv => (h.writable_overflow capacity v hv).1

end Regular

/-! ### Runs -/

/-- The parts fit together after any deeds. -/
theorem run_regular {s : SpillState} (hpending : s.spill.pending = []) (hs : Unused s)
    (hbuffer : ∀ v ∈ s.buffer, Writable v) {ds : List Deed} (hds : ∀ v, .push v ∈ ds → Writable v) :
    Regular s (run ds s) := by
  induction ds using List.reverseRecOn with
  | nil => exact regular_self hpending hbuffer
  | append_singleton ds d ih =>
    rw [run_concat]
    refine (ih fun v hv => hds v (List.mem_append_left _ hv)).after hs d fun v hv => hds v ?_
    rw [hv]
    exact List.mem_append_right ds (List.mem_singleton_self _)

/-- A deed makes no record, or one with the next number, which goes behind the others. -/
theorem made?_cases (d : Deed) (t : SpillState) :
    (d.made? t = Option.none ∧ (d.after t).spill.nextSequence = t.spill.nextSequence ∧
      (d.after t).spill.pending.Sublist t.spill.pending) ∨
    ∃ r, d.made? t = some r ∧ r.sequence = t.spill.nextSequence ∧
      (d.after t).spill.nextSequence = t.spill.nextSequence + 1 ∧
      (d.after t).spill.pending = t.spill.pending ++ [r] := by
  cases d with
  | push v => exact .inl ⟨rfl, rfl, List.Sublist.refl _⟩
  | spill capacity =>
    rw [Deed.made?, Deed.after]
    rcases spillIfNeeded_cases capacity t with ⟨-, hrun⟩ | ⟨-, f, files, -, hrun⟩ | ⟨-, files, -, hrun⟩
    all_goals rw [hrun]
    · exact .inl ⟨rfl, rfl, List.Sublist.refl _⟩
    · exact .inl ⟨rfl, rfl, List.Sublist.refl _⟩
    · exact .inr ⟨_, rfl, rfl, rfl, rfl⟩
  | reload =>
    refine .inl ⟨rfl, ?_⟩
    rw [Deed.after]
    rcases reload_cases t with hrun | ⟨f, hrun⟩ | ⟨r, rest, u, hrun, hp, hspill⟩
    all_goals rw [hrun]
    · exact ⟨rfl, List.Sublist.refl _⟩
    · exact ⟨rfl, List.Sublist.refl _⟩
    · rw [hspill, hp]
      exact ⟨rfl, List.sublist_cons_self r rest⟩
  | discard =>
    obtain ⟨files, hrun⟩ := discardAll_eq t
    rw [Deed.after, hrun]
    exact .inl ⟨rfl, rfl, List.nil_sublist _⟩

/-- The records of a run are numbered from zero on, and those that are pending are among them. -/
theorem made_numbered {s : SpillState} {dir : Path} (hfresh : s.spill = Spill.none dir) (ds : List Deed) :
    (made ds s).map SpillRecord.sequence = List.range (run ds s).spill.nextSequence ∧
      (run ds s).spill.pending.Sublist (made ds s) := by
  induction ds using List.reverseRecOn with
  | nil =>
    rw [run, List.foldl_nil, hfresh]
    exact ⟨rfl, List.Sublist.refl _⟩
  | append_singleton ds d ih =>
    obtain ⟨hnumbers, hpending⟩ := ih
    rw [run_concat, made_concat]
    rcases made?_cases d (run ds s) with ⟨hnone, hnext, hsub⟩ | ⟨r, hsome, hr, hnext, happend⟩
    · rw [hnone, hnext, Option.toList_none, List.append_nil]
      exact ⟨hnumbers, hsub.trans hpending⟩
    · rw [hsome, hnext, happend, Option.toList_some, List.map_append, hnumbers, List.map_singleton, hr, List.range_succ]
      exact ⟨rfl, hpending.append (List.Sublist.refl _)⟩

/-- **Memory, records and files stay in step**, whatever is pushed, spilled, reloaded and discarded in whatever order.
The records are in the order of their numbers and have files of their own, each of which holds an array of as many
values as the record counts; the spill files of the directory are those and the ones that stood there at first; no
number is given twice; and a spill that returns cuts the buffer to the capacity, and has written what it cut off. -/
theorem run_in_step {s : SpillState} {dir : Path} (hfresh : s.spill = Spill.none dir) (hunused : Unused s)
    (hbuffer : ∀ v ∈ s.buffer, Writable v) {ds : List Deed} (hpushed : ∀ v, .push v ∈ ds → Writable v) :
    (run ds s).spill.InSequence ∧
      ((run ds s).spill.pending.map SpillRecord.path).Nodup ∧
      (∀ r ∈ (run ds s).spill.pending, ∃ batch,
        HoldsArray (run ds s).files r batch ∧ batch.length = r.count ∧ 0 < r.count) ∧
      (∀ name, fileLead <+: name →
        ((run ds s).files.StandsAt (dir.child name) ↔
          s.files.StandsAt (dir.child name) ∨ ∃ r ∈ (run ds s).spill.pending, r.path = dir.child name)) ∧
      (made ds s).map SpillRecord.sequence = List.range (run ds s).spill.nextSequence ∧
      (run ds s).spill.pending.Sublist (made ds s) ∧
      ∀ (capacity : Nat) r u, perform (spillIfNeeded capacity) (run ds s) = (.ok r, u) →
        u.buffer.length = min (run ds s).buffer.length capacity ∧
          (r.isSome ↔ capacity < (run ds s).buffer.length) ∧
          ∀ r', r = some r' →
            HoldsArray u.files r' ((run ds s).buffer.take ((run ds s).buffer.length - capacity)) := by
  have hpending : s.spill.pending = [] := by rw [hfresh]; rfl
  have hregular := run_regular hpending hunused hbuffer hpushed
  obtain ⟨hnumbers, hsub⟩ := made_numbered hfresh ds
  obtain ⟨bs, hstored, -⟩ := hregular.stored
  have hdirectory : s.spill.directory = dir := by rw [hfresh]; rfl
  refine ⟨hregular.sequence, hstored.distinct, fun r hr => ?_, fun name hname => ?_, hnumbers, hsub,
    fun capacity r u hrun => hregular.spill_returned hrun⟩
  · obtain ⟨b, hb, hfill⟩ := hregular.exists_batch hr
    exact ⟨b, hb.holdsArray fun v hv => (hfill.writable v hv).1, hfill.count, hfill.positive⟩
  · rw [← hdirectory]
    exact hregular.standsAt_child hname

/-- An empty buffer in an empty tree. -/
def vacant : SpillState where
  buffer := []
  spill := Spill.none ⟨[], ["spill"]⟩
  files := FileTree.empty "/work"
  nextName := 1

theorem unused_vacant : Unused vacant := by
  rintro n - l - ⟨t, ht⟩
  by_cases h0 : l = []
  · rw [h0, FileTree.nodeAt?_nil] at ht
    cases ht
  · rw [FileTree.nodeAt?, if_neg h0] at ht
    cases ht

/-- Two values are spilled and put back, and one of three is spilled again. -/
def spilledTwice : List Deed := [.push "a", .push "b", .spill 0, .reload, .push "c", .spill 2]

theorem run_in_step_spilledTwice :
    (run spilledTwice vacant).spill.pending.map SpillRecord.sequence = [1] ∧
      (run spilledTwice vacant).spill.InSequence ∧
      (made spilledTwice vacant).map SpillRecord.sequence = List.range (run spilledTwice vacant).spill.nextSequence ∧
      ∀ r ∈ (run spilledTwice vacant).spill.pending, ∃ batch,
        HoldsArray (run spilledTwice vacant).files r batch ∧ batch.length = r.count ∧ 0 < r.count := by
  have hpushed : ∀ v, .push v ∈ spilledTwice → Writable v := by
    intro v hv
    simp only [spilledTwice, List.mem_cons, Deed.push.injEq, reduceCtorEq, List.not_mem_nil, or_false, false_or] at hv
    rcases hv with rfl | rfl | rfl <;> exact ⟨rfl, rfl⟩
  obtain ⟨hsequence, -, hbatches, -, hnumbers, -⟩ := run_in_step (s := vacant) rfl unused_vacant (by simp [vacant]) hpushed
  exact ⟨by decide +kernel, hsequence, hnumbers, hbatches⟩

end Spill

end EventPipeline
