import EventPipeline.Proofs.Pipeline.Discarding

/-!
# Spills that fail

A spill fails if its file cannot be written. The values have not left the buffer then, and no record has been made.
What has become of the files is told by where the write failed:

* If the directory could not be made, or the file could not be opened, all files are as they were. Directories may
  have been made on the way, but not the spill directory itself unless something other than a file stands in it: so
  if nothing but pending files stood in it, there is no directory left after a discard.
* If the values have texts without a UTF-8 form in them, the file has been opened by the time that this is noticed. It
  is left behind without content, and no record tells of it (`failed_spill_litters`).
-/

namespace EventPipeline

namespace Spill

/-- The text that a spill writes. -/
def overflowText (capacity : Int) (s : SpillState) : Text := Json.write .spaced (.array (overflow capacity s))

/-- All that stands in the spill directory is files of pending records. -/
def Tidy (s : SpillState) : Prop :=
  ∀ d, FileTree.PlaceOf s.spill.directory d → ∀ name n, s.files.nodeAt? (d ++ [name]) = some n →
    ∃ t, n = .file t ∧ ∃ r ∈ s.spill.pending, FileTree.PlaceOf r.path (d ++ [name])

/-- The state after a failed spill, by what came of writing the file. -/
theorem write_of_failed {capacity : Int} {s t : SpillState} {f : Failure}
    (h : perform (spillIfNeeded capacity) s = (.error f, t)) :
    ∃ g files, perform (FileTree.save (filePath s.spill.directory s.nextName) (overflowText capacity s)) s.files =
      (.error g, files) ∧ t = afterFailure s files := by
  rcases spillIfNeeded_cases capacity s with ⟨-, h'⟩ | ⟨-, g, files, hwrite, h'⟩ | ⟨-, files, -, h'⟩
  · rw [h] at h'
    cases h'
  · rw [h] at h'
    cases h'
    exact ⟨g, files, hwrite, rfl⟩
  · rw [h] at h'
    cases h'

/-- If a file could not be opened in a tidy directory, then the directory is not there. -/
theorem not_isDirectory_of_tidy {s : SpillState} (hs : Tidy s) (hname : fileName s.nextName ∉ s.spill.directory.names)
    {f : Failure} {files : FileTree}
    (h : perform (FileTree.prepare (filePath s.spill.directory s.nextName)) s.files = (.error f, files)) :
    files.isDirectory s.spill.directory = false := by
  rcases FileTree.prepare_error (fileName_ne_up _) hname h with hdir | ⟨d, hd, hnode⟩
  · exact hdir
  · obtain ⟨t, ht, -⟩ := hs d (FileTree.site_of_locate hd) _ _ hnode
    cases ht

/-- **A failed spill** leaves the buffer, the records and the number of the next record as they were. If the values
have a UTF-8 form it leaves all files as they were, too, and a discard leaves no directory that only pending files
stood in. If not, it may leave one file more, which is empty. -/
theorem spill_failed {capacity : Int} {s t : SpillState} {f : Failure}
    (h : perform (spillIfNeeded capacity) s = (.error f, t)) :
    t.buffer = s.buffer ∧ t.spill = s.spill ∧
      ((overflowText capacity s).isEncodable = true →
        FileTree.SameFiles s.files t.files ∧
          (Tidy s → fileName s.nextName ∉ s.spill.directory.names →
            (discardAll.run t).2.files.isDirectory s.spill.directory = false)) ∧
      ((overflowText capacity s).isEncodable = false →
        FileTree.SameFiles s.files t.files ∨
          t.files.node? (filePath s.spill.directory s.nextName) = some (.file []) ∧
            FileTree.SameFilesBut (FileTree.PlaceOf (filePath s.spill.directory s.nextName)) s.files t.files) := by
  obtain ⟨g, files, hwrite, rfl⟩ := write_of_failed h
  refine ⟨rfl, rfl, ?_⟩
  rcases FileTree.save_cases (filePath s.spill.directory s.nextName) (overflowText capacity s) s.files with
    ⟨g', files', hsave, hprepare, hsame⟩ | ⟨hencodable, g', files', hsave, hempty, hsame⟩ | ⟨-, files', hsave, -⟩
  all_goals rw [hwrite] at hsave
  all_goals cases hsave
  · refine ⟨fun _ => ⟨hsame, fun hs hname => ?_⟩, fun _ => .inl hsame⟩
    exact FileTree.isDirectory_of_pruned (pruned_discardAll _) (not_isDirectory_of_tidy hs hname hprepare)
  · refine ⟨fun h => ?_, fun _ => .inr ⟨hempty, hsame⟩⟩
    rw [hencodable] at h
    cases h

/-- A tree with a file where the spill directory should be, and a value to be spilled. -/
def blocked : SpillState where
  buffer := [.text "a"]
  spill := Spill.none ⟨[], ["spill"]⟩
  files := ⟨"/work", [(["spill"], .file [])]⟩
  nextName := 1

theorem tidy_blocked : Tidy blocked := by
  intro d hd name n hn
  obtain rfl : (["spill"] : Location) = d := Option.some.inj hd
  rw [FileTree.nodeAt?, if_neg (by simp)] at hn
  simp [blocked, Table.find?] at hn

theorem spill_failed_blocked :
    ∃ f t, perform (spillIfNeeded 0) blocked = (.error f, t) ∧ t.buffer = blocked.buffer ∧ t.spill = blocked.spill ∧
      FileTree.SameFiles blocked.files t.files ∧
      (discardAll.run t).2.files.isDirectory blocked.spill.directory = false := by
  have hfails : ∃ f, (perform (spillIfNeeded 0) blocked).1 = .error f := ⟨_, rfl⟩
  obtain ⟨f, hf⟩ := hfails
  have h : perform (spillIfNeeded 0) blocked = (.error f, (perform (spillIfNeeded 0) blocked).2) := Prod.ext hf rfl
  obtain ⟨hbuffer, hspill, hwritable, -⟩ := spill_failed h
  obtain ⟨hsame, hdirectory⟩ := hwritable (by decide +kernel)
  exact ⟨f, _, h, hbuffer, hspill, hsame, hdirectory tidy_blocked (by decide +kernel)⟩

/-- An empty tree, in which a value without a UTF-8 form is about to be spilled. -/
def unwritable : SpillState where
  buffer := [.text [.surrogate 0]]
  spill := Spill.none ⟨[], ["spill"]⟩
  files := FileTree.empty "/work"
  nextName := 1

theorem failed_spill_litters :
    (∃ f, (perform (spillIfNeeded 0) unwritable).1 = .error f) ∧
      unwritable.files.nodes = [] ∧
      (perform (spillIfNeeded 0) unwritable).2.spill.pending = [] ∧
      (perform (spillIfNeeded 0) unwritable).2.files.node? (filePath ⟨[], ["spill"]⟩ 1) = some (.file []) ∧
      (discardAll.run (perform (spillIfNeeded 0) unwritable).2).2.files.isDirectory ⟨[], ["spill"]⟩ = true := by
  refine ⟨⟨_, rfl⟩, rfl, rfl, ?_, ?_⟩
  · decide +kernel
  · decide +kernel

end Spill

end EventPipeline
