import EventPipeline.Proofs.Files.Outcomes
import EventPipeline.Proofs.Pipeline.Spilling

/-!
# What a discard removes

A discard unlinks one pending file after the other, whatever has become of them, and then removes the directory if
nothing stands in it. So it makes nothing (`pruned_discardAll`), touches no file but the pending ones
(`sameFilesBut_discardAll`), and no pending file is there afterwards (`discardAll_gone`).
-/

namespace EventPipeline

namespace FileTree

/-! ### Finding paths in a tree with less in it -/

theorem walk_of_pruned {fs fs' : FileTree} (h : Pruned fs fs') {names : List Text} {loc l : Location}
    (hw : fs'.walk loc names = .ok l) : fs.walk loc names = .ok l := by
  induction names generalizing loc with
  | nil => exact hw
  | cons name names ih =>
    rw [walk] at hw
    split at hw
    · cases hw
    · cases hw
    · rename_i hd
      rw [walk, h.node loc _ hd]
      dsimp only
      split_ifs at hw ⊢ with hup hroot
      · exact ih hw
      · exact ih hw

/-- A path that leads somewhere led there before. -/
theorem locate_of_pruned {fs fs' : FileTree} (h : Pruned fs fs') {p : Path} {l : Location}
    (hl : fs'.locate p = .ok l) : fs.locate p = .ok l := by
  unfold locate at hl ⊢
  rw [← h.working]
  split_ifs at hl ⊢
  exact walk_of_pruned h hl

/-- What stands at a path stood there before. -/
theorem node?_of_pruned {fs fs' : FileTree} (h : Pruned fs fs') {p : Path} {n : Node} (hn : fs'.node? p = some n) :
    fs.node? p = some n := by
  obtain ⟨l, hl, hn⟩ := node?_eq_some_iff.1 hn
  exact node?_eq_some_iff.2 ⟨l, locate_of_pruned h hl, h.node l n hn⟩

/-- No directory is made. -/
theorem isDirectory_of_pruned {fs fs' : FileTree} (h : Pruned fs fs') {p : Path} (hp : fs.isDirectory p = false) :
    fs'.isDirectory p = false := by
  rw [isDirectory, beq_eq_false_iff_ne] at hp ⊢
  exact fun hn => hp (node?_of_pruned h hn)

end FileTree

namespace Spill

/-! ### Removing the pending files -/

/-- A place is that of a record. -/
def PlaceIn (rs : List SpillRecord) (l : Location) : Prop := ∃ r ∈ rs, FileTree.PlaceOf r.path l

theorem placeIn_cons {r : SpillRecord} {rs : List SpillRecord} {l : Location} :
    PlaceIn (r :: rs) l ↔ FileTree.PlaceOf r.path l ∨ PlaceIn rs l := List.exists_mem_cons_iff _ r rs

/-- Two spill files of one directory have different places. -/
theorem place_filePath_injective {dir : Path} {m n : Nat} {l : Location} (hm : FileTree.PlaceOf (filePath dir m) l)
    (hn : FileTree.PlaceOf (filePath dir n) l) : m = n := by
  by_contra hne
  exact FileTree.site_child_ne (fileName_ne_up m) (fileName_ne_up n) (fun h => hne (fileName_injective h)) hm hn

/-- Where the first record has its file, no other one has. -/
theorem not_placeIn_rest {dir : Path} {r : SpillRecord} {rest : List SpillRecord}
    (hnamed : ∀ r' ∈ r :: rest, ∃ n, r'.path = filePath dir n) (hdistinct : ((r :: rest).map SpillRecord.path).Nodup)
    {l : Location} (hl : FileTree.PlaceOf r.path l) : ¬ PlaceIn rest l := by
  rintro ⟨r', hr', hl'⟩
  obtain ⟨n, hn⟩ := hnamed r List.mem_cons_self
  obtain ⟨m, hm⟩ := hnamed r' (List.mem_cons_of_mem r hr')
  rw [hn] at hl
  rw [hm] at hl'
  rw [place_filePath_injective hl hl'] at hn
  rw [List.map_cons, List.nodup_cons] at hdistinct
  apply hdistinct.1
  rw [hn, ← hm]
  exact List.mem_map_of_mem hr'

theorem removed_cons (r : SpillRecord) (rs : List SpillRecord) (fs : FileTree) :
    removed (r :: rs) fs = removed rs (perform (FileTree.unlink r.path) fs).2 := rfl

theorem pruned_removed (rs : List SpillRecord) (fs : FileTree) : FileTree.Pruned fs (removed rs fs) := by
  induction rs generalizing fs with
  | nil => exact refl_of FileTree.Pruned fs
  | cons r rs ih => exact trans_of FileTree.Pruned (FileTree.pruned_unlink r.path fs) (ih _)

/-- To remove files touches no other file. -/
theorem sameFilesBut_removed (rs : List SpillRecord) (fs : FileTree) :
    FileTree.SameFilesBut (PlaceIn rs) fs (removed rs fs) := by
  induction rs generalizing fs with
  | nil => exact refl_of (FileTree.SameFilesBut _) fs
  | cons r rs ih =>
    have hfirst : FileTree.SameFilesBut (PlaceIn (r :: rs)) fs (perform (FileTree.unlink r.path) fs).2 :=
      (FileTree.sameFilesBut_unlink r.path fs).mono fun _ hl => placeIn_cons.2 (.inl hl)
    exact trans_of (FileTree.SameFilesBut _) hfirst ((ih _).mono fun _ hl => placeIn_cons.2 (.inr hl))

/-- A file that was unlinked is not there. -/
theorem unlink_gone {fs : FileTree} {p : Path} {l : Location} (hl : fs.locate p = .ok l) (t : Text) :
    (perform (FileTree.unlink p) fs).2.nodeAt? l ≠ some (.file t) := by
  rcases FileTree.unlink_cases p fs with ⟨l', t', hl', ht', h⟩ | ⟨hnone, h⟩
  · rw [hl] at hl'
    cases hl'
    have h0 : l ≠ [] := by
      rintro rfl
      rw [FileTree.nodeAt?_nil] at ht'
      cases ht'
    rw [h, FileTree.nodeAt?_remove fs l h0, if_pos rfl]
    simp
  · rw [h]
    exact fun ht => hnone t (FileTree.node?_eq_some_iff.2 ⟨l, hl, ht⟩)

/-- **No file of a record is there after the files were removed.** -/
theorem removed_gone {rs : List SpillRecord} {fs : FileTree} {r : SpillRecord} (hr : r ∈ rs) {l : Location}
    (hl : fs.locate r.path = .ok l) (t : Text) : (removed rs fs).nodeAt? l ≠ some (.file t) := by
  induction rs generalizing fs with
  | nil => cases hr
  | cons r' rs ih =>
    rw [removed_cons]
    rcases List.mem_cons.1 hr with rfl | hr
    · exact fun ht => unlink_gone hl t ((pruned_removed rs _).node l _ ht)
    · exact ih hr (FileTree.locate_of_keepsBut (FileTree.leads_unlink r'.path fs) hl)

/-! ### The whole discard -/

/-- **A discard makes nothing.** -/
theorem pruned_discardAll (s : SpillState) : FileTree.Pruned s.files (discardAll.run s).2.files := by
  rw [discardAll_snd]
  exact trans_of FileTree.Pruned (pruned_removed _ _) (FileTree.pruned_removeIfEmpty _ _)

/-- A discard touches no file but the pending ones. -/
theorem sameFilesBut_discardAll (s : SpillState) :
    FileTree.SameFilesBut (PlaceIn s.spill.pending) s.files (discardAll.run s).2.files := by
  rw [discardAll_snd]
  exact trans_of (FileTree.SameFilesBut _) (sameFilesBut_removed _ _) ((FileTree.sameFiles_removeIfEmpty _ _).of_same _)

/-- **A discard leaves no pending file.** -/
theorem discardAll_gone {s : SpillState} {r : SpillRecord} (hr : r ∈ s.spill.pending) {l : Location}
    (hl : s.files.locate r.path = .ok l) (t : Text) : (discardAll.run s).2.files.nodeAt? l ≠ some (.file t) := by
  intro ht
  rw [discardAll_snd] at ht
  exact removed_gone hr hl t ((FileTree.pruned_removeIfEmpty _ _).node l _ ht)

end Spill

end EventPipeline
