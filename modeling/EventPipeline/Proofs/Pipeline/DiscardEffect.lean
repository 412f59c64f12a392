import EventPipeline.Proofs.Pipeline.Reloads

/-!
# What exactly a discard removes

Whatever has become of the files of a buffer, a discard unlinks each pending file once. Where a directory has taken the
place of a file, that is reported and nothing is removed; such a directory also keeps the one around it. All that is
gone afterwards are the pending files and, if nothing is left in it, the spill directory (`discard_effect`).
-/

namespace EventPipeline

namespace FileTree

/-! ### What stands in a directory -/

/-- A directory has children if something stands under a name in it. -/
theorem hasChildren_eq_false_iff {fs : FileTree} {d : Location} :
    fs.hasChildren d = false ↔ ∀ name, fs.nodeAt? (d ++ [name]) = none := by
  have hchild : ∀ name, fs.nodeAt? (d ++ [name]) = Table.find? fs.nodes (d ++ [name]) :=
    fun name => if_neg (List.append_ne_nil_of_right_ne_nil d (List.cons_ne_nil name []))
  rw [hasChildren, List.any_eq_false]
  constructor
  · intro h name
    rw [hchild, Table.find?_eq_none_iff]
    intro hkey
    obtain ⟨entry, hentry, hname⟩ := List.mem_map.1 hkey
    exact h entry hentry (by simp [hname])
  · intro h entry hentry hbelow
    obtain ⟨hlast, hne⟩ : entry.1.dropLast = d ∧ entry.1 ≠ [] := by simpa using hbelow
    have hnone := h (entry.1.getLast hne)
    rw [hchild, Table.find?_eq_none_iff, ← hlast, List.dropLast_concat_getLast] at hnone
    exact hnone (List.mem_map_of_mem hentry)

/-- Where nothing is made, and only files at certain places are lost, everything else stays. -/
theorem nodeAt?_eq_of_pruned {S : Location → Prop} {fs fs' : FileTree} (hkeeps : KeepsBut S fs fs')
    (hpruned : Pruned fs fs') {l : Location} (hl : ¬ S l) : fs'.nodeAt? l = fs.nodeAt? l := by
  rcases hn : fs.nodeAt? l with _ | t | _
  · rw [Option.eq_none_iff_forall_ne_some]
    intro n hn'
    rw [hpruned.node l n hn'] at hn
    cases hn
  · exact hkeeps.file l t hl hn
  · exact hkeeps.directory l hn

/-! ### Removing a file -/

/-- A path that leads somewhere cannot be unlinked only if it leads to a directory. -/
theorem unlink_fst {fs : FileTree} {p : Path} {l : Location} (hl : fs.locate p = .ok l) :
    (perform (unlink p) fs).1 = if fs.isDirectory p then .error (FileError.isDirectory.toFailure p) else .ok ⟨⟩ := by
  rw [unlink, perform_bind_ok (perform_get fs), isDirectory, node?, hl]
  rcases hn : fs.nodeAt? l with _ | t | _ <;> simp only [hn, perform_set, perform_throw, perform_pure] <;> rfl

/-- To unlink a file leaves all directories. -/
theorem isDirectory_unlink (p q : Path) (fs : FileTree) :
    (perform (unlink p) fs).2.isDirectory q = fs.isDirectory q := by
  cases hq : fs.isDirectory q with
  | true => exact isDirectory_of_keepsBut (leads_unlink p fs) hq
  | false => exact isDirectory_of_pruned (pruned_unlink p fs) hq

/-! ### Removing a directory -/

/-- To remove a directory touches nothing else. -/
theorem nodeAt?_removeIfEmpty {p : Path} {fs : FileTree} {l : Location}
    (hl : ¬ (fs.locate p = .ok l ∧ fs.nodeAt? l = some .directory)) :
    (perform (removeIfEmpty p) fs).2.nodeAt? l = fs.nodeAt? l := by
  rcases removeIfEmpty_cases p fs with ⟨d, hd, hn, -, h⟩ | ⟨-, h⟩ <;> rw [h]
  by_cases h0 : l = []
  · rw [h0, nodeAt?_nil, nodeAt?_nil]
  · rw [nodeAt?_remove fs d h0, if_neg]
    rintro rfl
    exact hl ⟨hd, hn⟩

/-- **A directory is removed exactly if nothing is left in it.** -/
theorem removeIfEmpty_eq_none_iff {p : Path} {fs : FileTree} {d : Location} (h0 : d ≠ []) (hd : fs.locate p = .ok d)
    (hn : fs.nodeAt? d = some .directory) :
    (perform (removeIfEmpty p) fs).2.nodeAt? d = none ↔
      ∀ name, (perform (removeIfEmpty p) fs).2.nodeAt? (d ++ [name]) = none := by
  have hchild : ∀ name, (perform (removeIfEmpty p) fs).2.nodeAt? (d ++ [name]) = fs.nodeAt? (d ++ [name]) := by
    intro name
    refine nodeAt?_removeIfEmpty fun h => ?_
    rw [hd] at h
    have hlength := congrArg List.length (Except.ok.inj h.1)
    simp at hlength
  simp only [hchild, ← hasChildren_eq_false_iff]
  rcases removeIfEmpty_cases p fs with ⟨d', hd', -, hempty, h⟩ | ⟨hfull, h⟩ <;> rw [h]
  · rw [hd] at hd'
    cases hd'
    simp [nodeAt?_remove fs d h0, hempty]
  · simp [hn, hfull d hd hn]

end FileTree

namespace Spill

/-! ### Removing the pending files -/

theorem keepsBut_removed (rs : List SpillRecord) (fs : FileTree) :
    FileTree.KeepsBut (PlaceIn rs) fs (removed rs fs) := by
  induction rs generalizing fs with
  | nil => exact refl_of (FileTree.KeepsBut _) fs
  | cons r rs ih =>
    have hfirst : FileTree.KeepsBut (PlaceIn (r :: rs)) fs (perform (FileTree.unlink r.path) fs).2 :=
      (FileTree.leads_unlink r.path fs).mono fun _ hl => placeIn_cons.2 (.inl hl)
    exact trans_of (FileTree.KeepsBut _) hfirst ((ih _).mono fun _ hl => placeIn_cons.2 (.inr hl))

/-- The failure to remove what has become a directory. -/
def directoryInPlace (r : SpillRecord) : Failure :=
  removalFailure r.path (FileError.isDirectory.toFailure r.path)

/-- **Each record that a directory stands in the place of is reported**, in order, and nothing else is. -/
theorem removeFiles_fst {rs : List SpillRecord} {s : SpillState}
    (hplaces : ∀ r ∈ rs, ∃ l, s.files.locate r.path = .ok l) :
    ((removeFiles rs).run s).1 = (rs.filter fun r => s.files.isDirectory r.path).map directoryInPlace := by
  induction rs generalizing s with
  | nil => rfl
  | cons r rs ih =>
    obtain ⟨l, hl⟩ := hplaces r List.mem_cons_self
    have hrest := ih (s := { s with files := (perform (FileTree.unlink r.path) s.files).2 }) fun r' hr' => by
      obtain ⟨l', hl'⟩ := hplaces r' (List.mem_cons_of_mem r hr')
      exact ⟨l', FileTree.locate_of_keepsBut (FileTree.leads_unlink r.path s.files) hl'⟩
    simp only [FileTree.isDirectory_unlink] at hrest
    have hrun := perform_onFiles (removalFailure r.path) (FileTree.unlink r.path) s
    rw [FileTree.unlink_fst hl] at hrun
    unfold perform at hrun hrest
    rw [removeFiles, StateT.run_bind, List.filter_cons]
    cases hdir : s.files.isDirectory r.path with
    | true =>
      rw [hdir, if_pos rfl] at hrun
      rw [hrun, if_pos rfl, List.map_cons, ← hrest]
      rfl
    | false =>
      rw [hdir, if_neg Bool.false_ne_true] at hrun
      rw [hrun, if_neg Bool.false_ne_true, ← hrest]
      rfl

/-- A path of a record leads to a directory that was there, or to nothing. -/
theorem nodeAt?_removed {rs : List SpillRecord} {fs : FileTree} {r : SpillRecord} (hr : r ∈ rs) {l : Location}
    (hl : fs.locate r.path = .ok l) :
    (removed rs fs).nodeAt? l = if fs.isDirectory r.path then some .directory else Option.none := by
  cases hdir : fs.isDirectory r.path with
  | true =>
    obtain ⟨l', hl', hn⟩ := FileTree.isDirectory_iff.1 hdir
    rw [hl] at hl'
    cases hl'
    exact (keepsBut_removed rs fs).directory l hn
  | false =>
    rw [if_neg Bool.false_ne_true, Option.eq_none_iff_forall_ne_some]
    rintro (t | _) hn
    · exact removed_gone hr hl t hn
    · rw [Bool.eq_false_iff] at hdir
      exact hdir (FileTree.isDirectory_iff.2 ⟨l, hl, (pruned_removed rs fs).node l _ hn⟩)

/-! ### The whole discard -/

/-- To remove the directory never fails, so that a discard reports nothing but pending files. -/
theorem discardAll_fst (s : SpillState) :
    (discardAll.run s).1 =
      ((removeFiles s.spill.pending).run { s with spill := { s.spill with pending := [] } }).1 := by
  rw [discardAll]
  simp only [StateT.run_bind, StateT.run_get, StateT.run_set, pure_bind]
  generalize StateT.run (removeFiles s.spill.pending) _ = r
  obtain ⟨failures, t⟩ := r
  have hdir := perform_onFiles (directoryFailure s.spill.directory) (FileTree.removeIfEmpty s.spill.directory) t
  have hok : (perform (FileTree.removeIfEmpty s.spill.directory) t.files).1 = .ok ⟨⟩ := by
    rcases FileTree.removeIfEmpty_cases s.spill.directory t.files with ⟨d, -, -, -, h⟩ | ⟨-, h⟩ <;> rw [h]
  rw [hok] at hdir
  unfold perform at hdir
  simp only [Bind.bind, hdir]
  rfl

section Effect

variable {dir : Path} {s : SpillState}

/-- The files that a discard leaves. -/
def filesLeft (s : SpillState) : FileTree :=
  (perform (FileTree.removeIfEmpty s.spill.directory) (removed s.spill.pending s.files)).2

theorem Placed.discardAll_run (h : Placed dir s) :
    discardAll.run s =
      ((s.spill.pending.filter fun r => s.files.isDirectory r.path).map directoryInPlace,
        { s with spill := { s.spill with pending := [] }, files := filesLeft s }) := by
  refine Prod.ext ?_ (discardAll_snd s)
  rw [discardAll_fst]
  refine removeFiles_fst fun r hr => ?_
  obtain ⟨n, -, -, hl⟩ := h.locate hr
  exact hl

/-- A pending path leads to the directory that has taken its place, or to nothing. -/
theorem Placed.node?_filesLeft (h : Placed dir s) {r : SpillRecord} (hr : r ∈ s.spill.pending) :
    (filesLeft s).node? r.path = if s.files.isDirectory r.path then some .directory else Option.none := by
  obtain ⟨n, -, hpath, l, hl⟩ := h.locate hr
  obtain rfl := h.directory
  have hleft := nodeAt?_removed hr hl
  have hl' := FileTree.locate_of_keepsBut (keepsBut_removed s.spill.pending s.files) hl
  cases hdir : s.files.isDirectory r.path with
  | true =>
    rw [hdir, if_pos rfl] at hleft
    rw [if_pos rfl, filesLeft]
    rcases FileTree.removeIfEmpty_cases s.spill.directory (removed s.spill.pending s.files) with
      ⟨d, hd, hn, hempty, -⟩ | ⟨-, hrun⟩
    · have hchild := FileTree.locate_child_of_directory hd hn (fileName_ne_up n)
      rw [hpath, filePath, hchild] at hl'
      cases hl'
      rw [FileTree.hasChildren_eq_false_iff.1 hempty] at hleft
      cases hleft
    · rw [hrun]
      exact FileTree.node?_eq_some_iff.2 ⟨l, hl', hleft⟩
  | false =>
    rw [hdir, if_neg Bool.false_ne_true] at hleft
    rw [if_neg Bool.false_ne_true, Option.eq_none_iff_forall_ne_some]
    intro n hn
    obtain ⟨l'', hl'', hn'⟩ :=
      FileTree.node?_eq_some_iff.1 (FileTree.node?_of_pruned (FileTree.pruned_removeIfEmpty _ _) hn)
    rw [hl'] at hl''
    cases hl''
    rw [hleft] at hn'
    cases hn'

/-- What stands where neither a pending path nor that of the directory leads to is not touched. -/
theorem Placed.nodeAt?_filesLeft (h : Placed dir s) {l : Location}
    (hpending : ∀ r ∈ s.spill.pending, s.files.locate r.path ≠ .ok l)
    (hdir : ¬ (s.files.locate dir = .ok l ∧ s.files.nodeAt? l = some .directory)) :
    (filesLeft s).nodeAt? l = s.files.nodeAt? l := by
  obtain rfl := h.directory
  have hplace : ¬ PlaceIn s.spill.pending l := by
    rintro ⟨r, hr, hl⟩
    obtain ⟨-, -, -, l', hl'⟩ := h.locate hr
    rw [FileTree.PlaceOf, FileTree.site_of_locate hl'] at hl
    cases hl
    exact hpending r hr hl'
  have hremoved : ¬ ((removed s.spill.pending s.files).locate s.spill.directory = .ok l ∧
      (removed s.spill.pending s.files).nodeAt? l = some .directory) := by
    rintro ⟨hl, hn⟩
    have hpruned := pruned_removed s.spill.pending s.files
    exact hdir ⟨FileTree.locate_of_pruned hpruned hl, hpruned.node l _ hn⟩
  rw [filesLeft, FileTree.nodeAt?_removeIfEmpty hremoved]
  exact FileTree.nodeAt?_eq_of_pruned (keepsBut_removed _ _) (pruned_removed _ _) hplace

end Effect

/-- Two records. A directory with a file in it has taken the place of the first one's file. -/
def firstReplaced : SpillState :=
  { twoSpilled with
    files := (twoSpilled.files.put ["spill", fileName 1] .directory).put ["spill", fileName 1, "kept"] (.file "k") }

theorem reached_firstReplaced : Reached ⟨[], ["spill"]⟩ firstReplaced := by
  refine reached_twoSpilled.disturbed _ fun _ => ?_
  decide +kernel

end Spill

end EventPipeline
