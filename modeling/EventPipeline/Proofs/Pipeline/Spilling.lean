import EventPipeline.Proofs.Files.Frame
import EventPipeline.Proofs.Json.Symbols
import EventPipeline.Proofs.Text.Digits
import Mathlib.Data.List.Forall2
import Mathlib.Data.List.Nodup

/-!
# What spilling keeps

The values of a buffer and of the files that it was spilled to. `Stored dir s bs` says that the pending
records of `s` have files in the directory that hold the batches `bs`, each file under a name of its own
that was given before.

* `spillIfNeeded_cases`: all that can come of a spill. The batch leaves the buffer only after its
  file has been written.
* `leads_spillIfNeeded`: a spill, whether it succeeds or fails, moves values from the front of the
  buffer into a new last file, and nothing else.
* `stored_reload`: a reload of stored values succeeds in reading, and moves the values of the first
  file to the front of the buffer.
* `reload_cases`, `discardAll_snd`: what can come of a reload and of a discard, whatever stands in the files.

Nothing is assumed about the directories: a write may fail at any point, also after its file has been
created.
-/

namespace EventPipeline

namespace Spill

/-! ### Single steps -/

/-- What comes of a step on the files alone. -/
theorem perform_onFiles {α : Type} (reword : Failure → Failure) (a : FileAction α) (s : SpillState) :
    perform (onFiles reword a) s =
      ((perform a s.files).1.mapError reword, { s with files := (perform a s.files).2 }) := by
  unfold onFiles
  rw [perform_bind_ok (perform_get s)]
  rcases h : perform a s.files with ⟨_ | _, files⟩
  all_goals
    unfold perform at h
    simp only [h]
    rfl

/-- The file of a record holds a JSON array of values. -/
def HoldsArray (fs : FileTree) (r : SpillRecord) (batch : List Value) : Prop :=
  ∃ t, fs.node? r.path = some (.file t) ∧ Json.readOrFail t.foldLineEnds = .ok (.array batch)

/-- What comes of reading a batch: the values that the file of the record holds, or a failure if it holds no JSON
array; nothing changes. -/
theorem readBatch_cases (r : SpillRecord) (fs : FileTree) :
    (∃ batch, HoldsArray fs r batch ∧ perform (readBatch r) fs = (.ok batch, fs)) ∨
      ((∀ batch, ¬ HoldsArray fs r batch) ∧ ∃ f, perform (readBatch r) fs = (.error f, fs)) := by
  rw [readBatch]
  rcases FileTree.read_cases r.path fs with ⟨t, hnode, hread⟩ | ⟨hnone, f, hread⟩
  · rw [perform_bind_ok hread]
    have hholds : ∀ batch, HoldsArray fs r batch ↔ Json.readOrFail t.foldLineEnds = .ok (.array batch) := by
      intro batch
      refine ⟨?_, fun h => ⟨t, hnode, h⟩⟩
      rintro ⟨t', ht', h⟩
      rw [hnode] at ht'
      cases ht'
      exact h
    simp only [hholds]
    split
    · rename_i batch hbatch
      exact .inl ⟨batch, hbatch, rfl⟩
    · rename_i v hv hbatch
      refine .inr ⟨fun batch h => ?_, _, rfl⟩
      cases hbatch.symm.trans h
      exact hv batch rfl
    · rename_i f hbatch
      refine .inr ⟨fun batch h => ?_, _, rfl⟩
      cases hbatch.symm.trans h
  · rw [perform_bind, hread]
    exact .inr ⟨fun batch h => hnone _ h.choose_spec.1, f, rfl⟩

/-- A file holds one array at most. -/
theorem HoldsArray.unique {fs : FileTree} {r : SpillRecord} {b c : List Value} (hb : HoldsArray fs r b)
    (hc : HoldsArray fs r c) : b = c := by
  obtain ⟨t, ht, hb⟩ := hb
  obtain ⟨u, hu, hc⟩ := hc
  rw [ht] at hu
  cases hu
  cases hb.symm.trans hc
  rfl

theorem HoldsArray.perform_readBatch {fs : FileTree} {r : SpillRecord} {batch : List Value} (h : HoldsArray fs r batch) :
    perform (readBatch r) fs = (.ok batch, fs) := by
  rcases readBatch_cases r fs with ⟨b, hb, hread⟩ | ⟨hnone, -⟩
  · rw [hread, h.unique hb]
  · exact absurd h (hnone batch)

/-- The file of a record holds a batch as it was written. -/
def Holds (fs : FileTree) (r : SpillRecord) (batch : List Value) : Prop :=
  fs.node? r.path = some (.file (Json.write .spaced (.array batch)))

/-- A batch of JSON values can be read back from the file that holds it. -/
theorem Holds.holdsArray {fs : FileTree} {r : SpillRecord} {batch : List Value} (h : Holds fs r batch)
    (hj : ∀ v ∈ batch, v.isJson = true) : HoldsArray fs r batch := ⟨_, h, Json.readOrFail_write hj⟩

/-! ### The files that a step may touch -/

/-- The path of the file with a number. -/
def filePath (dir : Path) (n : Nat) : Path := dir.child (fileName n)

theorem filePath_injective (dir : Path) : Function.Injective (filePath dir) := by
  intro m n h
  simp only [filePath, Path.child, Path.mk.injEq, List.append_cancel_left_eq, List.cons.injEq, and_true,
    true_and] at h
  exact fileName_injective h

/-- The spill files of a directory stay as they are, except for some numbers. -/
def SparesBut (S : Nat → Prop) (dir : Path) (fs fs' : FileTree) : Prop :=
  ∀ n t, ¬ S n → fs.node? (filePath dir n) = some (.file t) → fs'.node? (filePath dir n) = some (.file t)

/-- All spill files of a directory stay as they are. -/
abbrev Spares (dir : Path) : FileTree → FileTree → Prop := SparesBut (fun _ => False) dir

instance (S : Nat → Prop) (dir : Path) : IsPreorder FileTree (SparesBut S dir) where
  refl _ _ _ _ h := h
  trans _ _ _ h h' n t hS ht := h' n t hS (h n t hS ht)

/-- An operation on one spill file touches no other one. -/
theorem sparesBut_of_keepsBut {dir : Path} {k : Nat} {fs fs' : FileTree}
    (h : FileTree.KeepsBut (FileTree.PlaceOf (filePath dir k)) fs fs') : SparesBut (· = k) dir fs fs' := by
  intro n t hn ht
  refine FileTree.node?_of_keepsBut h (fun l hl hk => ?_) ht
  exact FileTree.site_child_ne (fileName_ne_up k) (fileName_ne_up n)
    (fun heq => hn (fileName_injective heq).symm) hk hl

/-! ### Stored batches -/

/-- The pending records have files in a directory that hold the batches. -/
structure Stored (dir : Path) (s : SpillState) (batches : List (List Value)) : Prop where
  /-- The files are in the directory. -/
  directory : s.spill.directory = dir
  /-- Each file holds its batch. -/
  holds : List.Forall₂ (Holds s.files) s.spill.pending batches
  /-- Each file has a name that was given before. -/
  named : ∀ r ∈ s.spill.pending, ∃ n < s.nextName, r.path = filePath dir n
  /-- No two records share a file. -/
  distinct : (s.spill.pending.map SpillRecord.path).Nodup

/-- Nothing is stored at first. -/
theorem stored_nil {s : SpillState} (h : s.spill.pending = []) : Stored s.spill.directory s [] := by
  constructor <;> simp [h]

/-- Records keep their batches as long as their files are spared. -/
theorem forall₂_holds_of_sparesBut {S : Nat → Prop} {dir : Path} {fs fs' : FileTree} (h : SparesBut S dir fs fs')
    {rs : List SpillRecord} {bs : List (List Value)} (hr : ∀ r ∈ rs, ∃ n, ¬ S n ∧ r.path = filePath dir n)
    (hb : List.Forall₂ (Holds fs) rs bs) : List.Forall₂ (Holds fs') rs bs := by
  induction hb with
  | nil => exact .nil
  | @cons r b rs bs hrb _ ih =>
    obtain ⟨n, hn, hp⟩ := hr r List.mem_cons_self
    refine .cons ?_ (ih fun r' h' => hr r' (List.mem_cons_of_mem _ h'))
    rw [Holds, hp] at hrb ⊢
    exact h n _ hn hrb

/-- Batches of JSON values can all be read back. -/
theorem forall₂_readBatch {fs : FileTree} {rs : List SpillRecord} {bs : List (List Value)}
    (h : List.Forall₂ (Holds fs) rs bs) (hj : ∀ v ∈ bs.flatten, v.isJson = true) :
    List.Forall₂ (fun r batch => perform (readBatch r) fs = (.ok batch, fs)) rs bs := by
  induction h with
  | nil => exact .nil
  | cons hr _ ih =>
    refine .cons (hr.holdsArray fun v hv => hj v (List.mem_append_left _ hv)).perform_readBatch (ih fun v hv => ?_)
    exact hj v (List.mem_append_right _ hv)

/-- Only files have changed, and none of the spill files of a directory. -/
structure Untouched (dir : Path) (s t : SpillState) : Prop where
  /-- The buffer is the same. -/
  buffer : t.buffer = s.buffer
  /-- The records are the same. -/
  spill : t.spill = s.spill
  /-- No name has been given. -/
  nextName : t.nextName = s.nextName
  /-- The spill files are the same. -/
  files : Spares dir s.files t.files

instance (dir : Path) : IsPreorder SpillState (Untouched dir) where
  refl _ := ⟨rfl, rfl, rfl, refl_of (Spares dir) _⟩
  trans _ _ _ h h' :=
    ⟨h'.buffer.trans h.buffer, h'.spill.trans h.spill, h'.nextName.trans h.nextName,
      trans_of (Spares dir) h.files h'.files⟩

/-- Batches stay stored while their files are not touched. -/
theorem Stored.of_untouched {dir : Path} {s t : SpillState} {bs : List (List Value)} (h : Stored dir s bs)
    (hu : Untouched dir s t) : Stored dir t bs := by
  obtain ⟨-, hs, hn, hf⟩ := hu
  refine ⟨by rw [hs, h.directory], ?_, ?_, ?_⟩
  · rw [hs]
    refine forall₂_holds_of_sparesBut hf (fun r hr => ?_) h.holds
    obtain ⟨n, -, hp⟩ := h.named r hr
    exact ⟨n, not_false, hp⟩
  · rw [hs, hn]
    exact h.named
  · rw [hs]
    exact h.distinct

/-! ### Spilling -/

/-- The oldest values above the capacity. -/
def overflow (capacity : Int) (s : SpillState) : List Value :=
  s.buffer.peekFront (s.buffer.length - capacity)

/-- The state after the file of a spill could not be written. -/
def afterFailure (s : SpillState) (files : FileTree) : SpillState :=
  { s with files := files, nextName := s.nextName + 1 }

/-- The record of the next spill. -/
def nextRecord (s : SpillState) (count : Nat) : SpillRecord :=
  ⟨filePath s.spill.directory s.nextName, s.spill.nextSequence, count⟩

/-- The state after a spill. -/
def afterSpill (capacity : Int) (s : SpillState) (files : FileTree) : SpillState where
  buffer := s.buffer.dropFront (s.buffer.length - capacity)
  spill :=
    { s.spill with
      pending := s.spill.pending ++ [nextRecord s (overflow capacity s).length]
      nextSequence := s.spill.nextSequence + 1 }
  files := files
  nextName := s.nextName + 1

/-- **What comes of a spill**: nothing below the capacity; above it the file is written, and only if
that succeeds the values leave the buffer. -/
theorem spillIfNeeded_cases (capacity : Int) (s : SpillState) :
    ((s.buffer.length : Int) ≤ capacity ∧ perform (spillIfNeeded capacity) s = (.ok Option.none, s)) ∨
    (capacity < s.buffer.length ∧ ∃ f files,
      perform (writeBatch (filePath s.spill.directory s.nextName) (overflow capacity s)) s.files = (.error f, files) ∧
      perform (spillIfNeeded capacity) s =
        (.error (writeFailure (filePath s.spill.directory s.nextName) (overflow capacity s).length f),
          afterFailure s files)) ∨
    (capacity < s.buffer.length ∧ ∃ files,
      perform (writeBatch (filePath s.spill.directory s.nextName) (overflow capacity s)) s.files = (.ok ⟨⟩, files) ∧
      perform (spillIfNeeded capacity) s =
        (.ok (some (nextRecord s (overflow capacity s).length)), afterSpill capacity s files)) := by
  rw [spillIfNeeded, perform_bind_ok (perform_get s)]
  by_cases h : (s.buffer.length : Int) ≤ capacity
  · refine .inl ⟨h, ?_⟩
    rw [if_pos (by omega)]
    rfl
  · right
    rw [if_neg (by omega), perform_bind_ok (perform_set _ _), perform_bind, perform_onFiles]
    rcases hw : perform (writeBatch (filePath s.spill.directory s.nextName) (overflow capacity s)) s.files with
      ⟨f | ⟨⟩, files⟩
    · refine .inl ⟨by omega, f, files, rfl, ?_⟩
      unfold filePath overflow at hw
      simp only [hw]
      rfl
    · refine .inr ⟨by omega, files, rfl, ?_⟩
      unfold filePath overflow at hw
      simp only [hw]
      rfl

/-- The states around a step that may spill into a directory: values have moved, in order, from the
front of the buffer into new files behind those that were there. -/
def Shed (dir : Path) (s t : SpillState) : Prop :=
  ∀ bs, Stored dir s bs → ∃ new, Stored dir t (bs ++ new) ∧ new.flatten ++ t.buffer = s.buffer

instance (dir : Path) : IsPreorder SpillState (Shed dir) where
  refl s bs h := ⟨[], by simpa using h, rfl⟩
  trans s t u := by
    intro h h' bs hs
    obtain ⟨new, ht, hb⟩ := h bs hs
    obtain ⟨new', hu, hb'⟩ := h' _ ht
    exact ⟨new ++ new', by rwa [← List.append_assoc], by rw [List.flatten_append, List.append_assoc, hb', hb]⟩

theorem Untouched.shed {dir : Path} {s t : SpillState} (h : Untouched dir s t) : Shed dir s t :=
  fun _ hs => ⟨[], by simpa using hs.of_untouched h, h.buffer⟩

/-- A write under the next name keeps what is stored. -/
theorem Stored.forall₂_of_next {dir : Path} {s : SpillState} {bs : List (List Value)} (h : Stored dir s bs)
    {files : FileTree} (hf : SparesBut (· = s.nextName) dir s.files files) :
    List.Forall₂ (Holds files) s.spill.pending bs := by
  refine forall₂_holds_of_sparesBut hf (fun r hr => ?_) h.holds
  obtain ⟨n, hn, hp⟩ := h.named r hr
  exact ⟨n, Nat.ne_of_lt hn, hp⟩

/-- A file that could not be written leaves what is stored, and its name is not given again. -/
theorem Stored.afterFailure {s : SpillState} {bs : List (List Value)} (h : Stored s.spill.directory s bs)
    {batch : List Value} {f : Failure} {files : FileTree}
    (hw : perform (writeBatch (filePath s.spill.directory s.nextName) batch) s.files = (.error f, files)) :
    Stored s.spill.directory (afterFailure s files) bs := by
  have hkeep := sparesBut_of_keepsBut (FileTree.leads_save (filePath s.spill.directory s.nextName)
    (Json.write .spaced (.array batch)) s.files)
  rw [writeBatch] at hw
  rw [hw] at hkeep
  refine ⟨rfl, h.forall₂_of_next hkeep, fun r hr => ?_, h.distinct⟩
  obtain ⟨n, hn, hp⟩ := h.named r hr
  exact ⟨n, Nat.lt_succ_of_lt hn, hp⟩

/-- With the next record, too, each record has a name that was given before. -/
theorem named_next {s : SpillState} (h : ∀ r ∈ s.spill.pending, ∃ n < s.nextName, r.path = filePath s.spill.directory n)
    (count : Nat) :
    ∀ r ∈ s.spill.pending ++ [nextRecord s count], ∃ n < s.nextName + 1, r.path = filePath s.spill.directory n := by
  intro r hr
  rcases List.mem_append.1 hr with hr | hr
  · obtain ⟨n, hn, hp⟩ := h r hr
    exact ⟨n, Nat.lt_succ_of_lt hn, hp⟩
  · rw [List.mem_singleton.1 hr]
    exact ⟨s.nextName, Nat.lt_succ_self _, rfl⟩

/-- With the next record, too, no two records share a file. -/
theorem nodup_next {s : SpillState} (h : ∀ r ∈ s.spill.pending, ∃ n < s.nextName, r.path = filePath s.spill.directory n)
    (hd : (s.spill.pending.map SpillRecord.path).Nodup) (count : Nat) :
    ((s.spill.pending ++ [nextRecord s count]).map SpillRecord.path).Nodup := by
  rw [List.map_append, List.map_singleton, List.nodup_append]
  refine ⟨hd, List.nodup_singleton _, ?_⟩
  rintro p hp q hq rfl
  obtain ⟨r, hr, rfl⟩ := List.mem_map.1 hp
  obtain ⟨n, hn, hp⟩ := h r hr
  rw [List.mem_singleton.1 hq] at hp
  exact absurd (filePath_injective _ hp) (Nat.ne_of_gt hn)

/-- The values of a spill are stored behind the others. -/
theorem Stored.afterSpill {capacity : Int} {s : SpillState} {bs : List (List Value)}
    (h : Stored s.spill.directory s bs) {files : FileTree}
    (hw : perform (writeBatch (filePath s.spill.directory s.nextName) (overflow capacity s)) s.files =
      (.ok ⟨⟩, files)) :
    Stored s.spill.directory (afterSpill capacity s files) (bs ++ [overflow capacity s]) := by
  have hkeep := sparesBut_of_keepsBut (FileTree.leads_save (filePath s.spill.directory s.nextName)
    (Json.write .spaced (.array (overflow capacity s))) s.files)
  have hholds : Holds files (nextRecord s (overflow capacity s).length) (overflow capacity s) := FileTree.node?_of_save hw
  rw [writeBatch] at hw
  rw [hw] at hkeep
  exact ⟨rfl, List.rel_append (h.forall₂_of_next hkeep) (.cons hholds .nil), named_next h.named _,
    nodup_next h.named h.distinct _⟩

/-- **A spill moves values and loses none**, also when it fails. -/
theorem leads_spillIfNeeded (dir : Path) (capacity : Int) : Leads (Shed dir) (spillIfNeeded capacity) := by
  intro s bs hs
  obtain rfl := hs.directory
  rcases spillIfNeeded_cases capacity s with ⟨-, h⟩ | ⟨-, f, files, hw, h⟩ | ⟨-, files, hw, h⟩
  · rw [h]
    exact refl_of (Shed s.spill.directory) s bs hs
  · rw [h]
    refine ⟨[], ?_, rfl⟩
    rw [List.append_nil]
    exact hs.afterFailure hw
  · rw [h]
    refine ⟨[overflow capacity s], hs.afterSpill hw, ?_⟩
    rw [List.flatten_singleton]
    exact Buffer.peekFront_append_dropFront _ _

/-- The pending records are in the order of their numbers. -/
structure InSequence (s : Spill) : Prop where
  /-- Later records have higher numbers. -/
  pending : s.pending.Pairwise (·.sequence < ·.sequence)
  /-- The next record will have a higher number. -/
  next : ∀ r ∈ s.pending, r.sequence < s.nextSequence

/-- Records that were in order are so still. -/
def KeepsSequence (s t : SpillState) : Prop := s.spill.InSequence → t.spill.InSequence

instance : IsPreorder SpillState KeepsSequence where
  refl _ := id
  trans _ _ _ h h' := h' ∘ h

/-- A new record is numbered behind all others. -/
theorem keepsSequence_spillIfNeeded (capacity : Int) : Leads KeepsSequence (spillIfNeeded capacity) := by
  intro s hs
  rcases spillIfNeeded_cases capacity s with ⟨-, h⟩ | ⟨-, f, files, -, h⟩ | ⟨-, files, -, h⟩
  · rw [h]
    exact hs
  · rw [h]
    exact ⟨hs.pending, hs.next⟩
  · rw [h]
    refine ⟨List.pairwise_append.2 ⟨hs.pending, List.pairwise_singleton _ _, fun r hr r' hr' => ?_⟩, fun r hr => ?_⟩
    · rw [List.mem_singleton.1 hr']
      exact hs.next r hr
    · rcases List.mem_append.1 hr with hr | hr
      · exact Nat.lt_succ_of_lt (hs.next r hr)
      · rw [List.mem_singleton.1 hr]
        exact Nat.lt_succ_self _

/-! ### Reloading -/

/-- The state after the batch of the first record has been put back. -/
def afterReload (s : SpillState) (r : SpillRecord) (batch : List Value) : SpillState :=
  { s with
    buffer := s.buffer.prepend batch
    spill := { s.spill with pending := s.spill.pending.tail }
    files := (perform (FileTree.unlink r.path) s.files).2 }

/-- Without a pending file there is nothing to put back. -/
theorem perform_reload_nil {s : SpillState} (h : s.spill.pending = []) : perform reload s = (.ok Option.none, s) := by
  rw [reload, perform_bind_ok (perform_get s), h]
  rfl

/-- **A reload of a file that can be read** puts its values back and removes it. -/
theorem perform_reload_of_holdsArray {s : SpillState} {r : SpillRecord} {rest : List SpillRecord}
    (hp : s.spill.pending = r :: rest) {batch : List Value} (h : HoldsArray s.files r batch) :
    perform reload s = (.ok (some r), afterReload s r batch) := by
  have hread : perform (onFiles (readFailure r.path) (readBatch r)) s = (.ok batch, s) := by
    rw [perform_onFiles, h.perform_readBatch]
    rfl
  obtain ⟨t, hnode, -⟩ := h
  obtain ⟨l, hl, hn⟩ := FileTree.node?_eq_some_iff.1 hnode
  rw [reload, perform_bind_ok (perform_get s), hp]
  dsimp only
  rw [perform_bind_ok hread, perform_bind_ok (perform_modify _ _), perform_bind, perform_onFiles, afterReload, hp]
  simp only [FileTree.perform_unlink hl hn]
  rfl

/-- **A reload of a file that cannot be read** changes nothing. -/
theorem perform_reload_of_unreadable {s : SpillState} {r : SpillRecord} {rest : List SpillRecord}
    (hp : s.spill.pending = r :: rest) (h : ∀ batch, ¬ HoldsArray s.files r batch) :
    ∃ f, perform reload s = (.error (readFailure r.path f), s) := by
  rcases readBatch_cases r s.files with ⟨batch, hbatch, -⟩ | ⟨-, f, hread⟩
  · exact absurd hbatch (h batch)
  · refine ⟨f, ?_⟩
    rw [reload, perform_bind_ok (perform_get s), hp]
    dsimp only
    rw [perform_bind, perform_onFiles, hread]
    rfl

/-- The other batches stay stored when the first one has been put back. -/
theorem Stored.afterReload {dir : Path} {s : SpillState} {b : List Value} {bs : List (List Value)}
    (h : Stored dir s (b :: bs)) {r : SpillRecord} {rest : List SpillRecord} (hp : s.spill.pending = r :: rest) :
    Stored dir (afterReload s r b) bs := by
  have hholds := h.holds
  have hdist := h.distinct
  have hnamed := h.named
  rw [hp] at hholds hdist hnamed
  rw [List.map_cons, List.nodup_cons] at hdist
  obtain ⟨n, -, hn⟩ := hnamed r List.mem_cons_self
  have hkeep := FileTree.leads_unlink r.path s.files
  have hspares : SparesBut (· = n) dir s.files (perform (FileTree.unlink r.path) s.files).2 := by
    rw [hn] at hkeep ⊢
    exact sparesBut_of_keepsBut hkeep
  have hpending : (Spill.afterReload s r b).spill.pending = rest := by rw [Spill.afterReload, hp, List.tail_cons]
  refine ⟨h.directory, ?_, ?_, ?_⟩ <;> rw [hpending]
  · refine forall₂_holds_of_sparesBut hspares (fun r' hr' => ?_) (List.forall₂_cons.1 hholds).2
    obtain ⟨m, -, hm⟩ := hnamed r' (List.mem_cons_of_mem _ hr')
    refine ⟨m, ?_, hm⟩
    rintro rfl
    exact hdist.1 (List.mem_map.2 ⟨r', hr', hm.trans hn.symm⟩)
  · exact fun r' hr' => hnamed r' (List.mem_cons_of_mem _ hr')
  · exact hdist.2

/-- A reload of stored values succeeds in reading, and puts the values of the first file in front of the buffer. -/
theorem stored_reload {dir : Path} {s : SpillState} {bs : List (List Value)} (h : Stored dir s bs)
    (hj : ∀ v ∈ bs.flatten, v.isJson = true) :
    Stored dir (perform reload s).2 bs.tail ∧ (perform reload s).2.buffer = bs.head?.getD [] ++ s.buffer := by
  have hholds := h.holds
  rcases hp : s.spill.pending with _ | ⟨r, rest⟩ <;> rw [hp] at hholds
  · cases hholds
    rw [perform_reload_nil hp]
    exact ⟨h, rfl⟩
  · obtain ⟨b, bs, hb, -, rfl⟩ := List.forall₂_cons_left_iff.1 hholds
    rw [perform_reload_of_holdsArray hp (hb.holdsArray fun v hv => hj v (List.mem_append_left _ hv))]
    exact ⟨h.afterReload hp, rfl⟩

/-- What can come of a reload: there is nothing to reload, the oldest file cannot be read and stays pending, or its
record is pending no more. -/
theorem reload_cases (s : SpillState) :
    perform reload s = (.ok Option.none, s) ∨
    (∃ f, perform reload s = (.error f, s)) ∨
    ∃ r rest t, perform reload s = (.ok (some r), t) ∧ s.spill.pending = r :: rest ∧
      t.spill = { s.spill with pending := rest } := by
  rcases hp : s.spill.pending with _ | ⟨r, rest⟩
  · exact .inl (perform_reload_nil hp)
  · right
    by_cases h : ∃ batch, HoldsArray s.files r batch
    · obtain ⟨batch, h⟩ := h
      refine .inr ⟨r, rest, _, perform_reload_of_holdsArray hp h, rfl, ?_⟩
      rw [afterReload, hp, List.tail_cons]
    · obtain ⟨f, hrun⟩ := perform_reload_of_unreadable hp (not_exists.1 h)
      exact .inl ⟨_, hrun⟩

/-! ### Discarding -/

/-- The files without those of some records, as far as they could be removed. -/
def removed (rs : List SpillRecord) (fs : FileTree) : FileTree :=
  rs.foldl (fun fs r => (perform (FileTree.unlink r.path) fs).2) fs

/-- Removing files touches nothing but files. -/
theorem removeFiles_snd (rs : List SpillRecord) (s : SpillState) :
    ((removeFiles rs).run s).2 = { s with files := removed rs s.files } := by
  induction rs generalizing s with
  | nil => rfl
  | cons r rs ih =>
    have h := perform_onFiles (removalFailure r.path) (FileTree.unlink r.path) s
    unfold perform at h
    rw [removeFiles, StateT.run_bind, h, removed, List.foldl_cons, ← removed]
    unfold perform
    rcases (FileTree.unlink r.path).run.run s.files with ⟨f | _, files⟩
    · exact ih { s with files := files }
    · exact ih { s with files := files }

/-- A discard leaves nothing pending, removes the pending files and then the directory if it is empty, and touches
nothing else. -/
theorem discardAll_snd (s : SpillState) :
    (discardAll.run s).2 =
      { s with
        spill := { s.spill with pending := [] }
        files := (perform (FileTree.removeIfEmpty s.spill.directory) (removed s.spill.pending s.files)).2 } := by
  have hremoved := removeFiles_snd s.spill.pending { s with spill := { s.spill with pending := [] } }
  rw [discardAll]
  simp only [StateT.run_bind, StateT.run_get, StateT.run_set, pure_bind]
  generalize StateT.run (removeFiles s.spill.pending) _ = r at hremoved ⊢
  obtain ⟨failures, t⟩ := r
  obtain rfl := hremoved
  have h := perform_onFiles (directoryFailure s.spill.directory) (FileTree.removeIfEmpty s.spill.directory)
    { s with spill := { s.spill with pending := [] }, files := removed s.spill.pending s.files }
  unfold perform at h ⊢
  simp only [Bind.bind, h]
  rcases (FileTree.removeIfEmpty s.spill.directory).run.run (removed s.spill.pending s.files) with ⟨_ | _, files⟩
  · rfl
  · rfl

/-- A discard leaves nothing pending, and touches only files otherwise. -/
theorem discardAll_eq (s : SpillState) :
    ∃ files, (discardAll.run s).2 = { s with spill := { s.spill with pending := [] }, files := files } :=
  ⟨_, discardAll_snd s⟩

end Spill

end EventPipeline
