import EventPipeline.Proofs.Json.Values
import EventPipeline.Proofs.Pipeline.SpillRuns

/-!
# Reloads, also of files that were changed from outside

A buffer may get into a state by what is done with it and by changes to the files from outside, as long as these leave
the spill directory where it is (`Reached`). In all such states the records have files of their own in the directory
(`Placed`), whatever has become of those.

* A reload depends on the first record's file only. If it holds a JSON array, its values are put back and it is
  removed, and nothing else changes. If not, nothing changes at all, and nothing but a discard gets that record out of
  the way (`Placed.stuck_run`).
* Reloads of files that can be read put the batches in front of the buffer one by one, so that a later one comes before
  an earlier one (`Placed.reload_many`).
* What was spilled last comes back as it was exactly if it can be told from its JSON text
  (`reload_spilled_iff`).
-/

namespace EventPipeline

namespace Spill

/-! ### The states of a buffer -/

/-- The states that a buffer gets into with a directory. -/
inductive Reached (dir : Path) : SpillState → Prop where
  /-- Nothing has been spilled. -/
  | fresh {s : SpillState} (h : s.spill = Spill.none dir) : Reached dir s
  /-- Something has been done. -/
  | deed {s : SpillState} (d : Deed) (h : Reached dir s) : Reached dir (d.after s)
  /-- The files have been changed from outside: the directory is where it was, but any file in it may have another
  text, may be gone or may be a directory. -/
  | disturbed {s : SpillState} (files : FileTree) (h : Reached dir s)
    (hdir : s.files.isDirectory dir = true → files.isDirectory dir = true) : Reached dir { s with files := files }

theorem Reached.run {dir : Path} {s : SpillState} (h : Reached dir s) (ds : List Deed) : Reached dir (run ds s) := by
  induction ds generalizing s with
  | nil => exact h
  | cons d ds ih => exact ih (h.deed d)

/-- The records have files of their own in a directory that is there. -/
structure Placed (dir : Path) (s : SpillState) : Prop where
  /-- The files are in the directory. -/
  directory : s.spill.directory = dir
  /-- Each file has a name that was given before. -/
  named : ∀ r ∈ s.spill.pending, ∃ n < s.nextName, r.path = filePath dir n
  /-- No two records share a file. -/
  distinct : (s.spill.pending.map SpillRecord.path).Nodup
  /-- The directory is there if any record is. -/
  stands : s.spill.pending ≠ [] → s.files.isDirectory dir = true

/-- What a spill does to the files: it writes the next one, or nothing. -/
theorem files_spill {R : FileTree → FileTree → Prop} [Std.Refl R] (capacity : Int) (s : SpillState)
    (h : ∀ t, Leads R (FileTree.save (filePath s.spill.directory s.nextName) t)) :
    R s.files (perform (spillIfNeeded capacity) s).2.files := by
  have hwritten := h (Json.write .spaced (.array (overflow capacity s))) s.files
  rw [← writeBatch] at hwritten
  rcases spillIfNeeded_cases capacity s with ⟨-, hrun⟩ | ⟨-, f, files, hwrite, hrun⟩ | ⟨-, files, hwrite, hrun⟩
  all_goals rw [hrun]
  · exact refl_of R s.files
  · rw [hwrite] at hwritten
    exact hwritten
  · rw [hwrite] at hwritten
    exact hwritten

namespace Placed

variable {dir : Path} {s : SpillState}

/-- Where the file of a record is found, if it is there. -/
theorem locate (h : Placed dir s) {r : SpillRecord} (hr : r ∈ s.spill.pending) :
    ∃ n < s.nextName, r.path = filePath dir n ∧ ∃ l, s.files.locate r.path = .ok l := by
  obtain ⟨n, hn, hpath⟩ := h.named r hr
  obtain ⟨d, hd, hnode⟩ := FileTree.isDirectory_iff.1 (h.stands (List.ne_nil_of_mem hr))
  refine ⟨n, hn, hpath, d ++ [fileName n], ?_⟩
  rw [hpath]
  exact FileTree.locate_child_of_directory hd hnode (fileName_ne_up n)

theorem spill (h : Placed dir s) (capacity : Int) : Placed dir (perform (spillIfNeeded capacity) s).2 := by
  obtain rfl := h.directory
  have hstands : s.spill.pending ≠ [] →
      (perform (spillIfNeeded capacity) s).2.files.isDirectory s.spill.directory = true :=
    fun hne => FileTree.isDirectory_of_keepsBut (files_spill capacity s (FileTree.leads_save _)) (h.stands hne)
  rcases spillIfNeeded_cases capacity s with ⟨-, hrun⟩ | ⟨-, f, files, -, hrun⟩ | ⟨-, files, hwrite, hrun⟩
  all_goals rw [hrun] at hstands ⊢
  · exact h
  · refine ⟨rfl, fun r hr => ?_, h.distinct, hstands⟩
    obtain ⟨n, hn, hpath⟩ := h.named r hr
    exact ⟨n, Nat.lt_succ_of_lt hn, hpath⟩
  · refine ⟨rfl, named_next h.named _, nodup_next h.named h.distinct _, fun _ => ?_⟩
    obtain ⟨l, hl, -⟩ := FileTree.node?_eq_some_iff.1 (FileTree.node?_of_save hwrite)
    exact FileTree.isDirectory_of_child hl

/-- Without its first record. -/
theorem tail (h : Placed dir s) {t : SpillState} (hspill : t.spill = { s.spill with pending := s.spill.pending.tail })
    (hname : t.nextName = s.nextName) (hdir : s.files.isDirectory dir = true → t.files.isDirectory dir = true) :
    Placed dir t := by
  have hmem : ∀ r ∈ s.spill.pending.tail, r ∈ s.spill.pending := fun r hr => List.mem_of_mem_tail hr
  refine ⟨?_, ?_, ?_, ?_⟩ <;> rw [hspill]
  · exact h.directory
  · rw [hname]
    exact fun r hr => h.named r (hmem r hr)
  · exact h.distinct.sublist ((List.tail_sublist _).map _)
  · exact fun hne => hdir (h.stands fun h0 => hne (by rw [h0, List.tail_nil]))

theorem reload (h : Placed dir s) : Placed dir (perform Spill.reload s).2 := by
  rcases hp : s.spill.pending with _ | ⟨r, rest⟩
  · rw [perform_reload_nil hp]
    exact h
  · by_cases hread : ∃ batch, HoldsArray s.files r batch
    · obtain ⟨batch, hread⟩ := hread
      rw [perform_reload_of_holdsArray hp hread]
      exact h.tail rfl rfl (FileTree.isDirectory_of_keepsBut (FileTree.leads_unlink r.path s.files))
    · obtain ⟨f, hrun⟩ := perform_reload_of_unreadable hp (not_exists.1 hread)
      rw [hrun]
      exact h

theorem after (h : Placed dir s) (d : Deed) : Placed dir (d.after s) := by
  cases d with
  | push v => exact ⟨h.directory, h.named, h.distinct, h.stands⟩
  | spill capacity => exact h.spill capacity
  | reload => exact h.reload
  | discard =>
    obtain ⟨files, hrun⟩ := discardAll_eq s
    rw [Deed.after, hrun]
    exact ⟨h.directory, by simp, by simp, by simp⟩

end Placed

/-- In all states that a buffer gets into, the records have files of their own. -/
theorem Reached.placed {dir : Path} {s : SpillState} (h : Reached dir s) : Placed dir s := by
  induction h with
  | fresh h =>
    constructor <;> simp [h, Spill.none]
  | deed d _ ih => exact ih.after d
  | disturbed files _ hdir ih => exact ⟨ih.directory, ih.named, ih.distinct, fun hne => hdir (ih.stands hne)⟩

/-! ### Records whose files are not touched -/

/-- A file that is found and not touched holds what it held. -/
theorem holdsArray_congr {S T : Location → Prop} {fs fs' : FileTree} (hkeeps : FileTree.KeepsBut S fs fs')
    (hsame : FileTree.SameFilesBut T fs fs') {r : SpillRecord} {l : Location} (hl : fs.locate r.path = .ok l)
    (hT : ¬ T l) (batch : List Value) : HoldsArray fs' r batch ↔ HoldsArray fs r batch := by
  have hnode : ∀ t, fs'.node? r.path = some (.file t) ↔ fs.node? r.path = some (.file t) := by
    intro t
    rw [FileTree.node?, FileTree.node?, FileTree.locate_of_keepsBut hkeeps hl, hl]
    exact hsame.file l t hT
  exact exists_congr fun t => and_congr_left' (hnode t)

namespace Placed

variable {dir : Path} {s : SpillState}

/-- A spill does not touch the files of other records. -/
theorem holdsArray_spill (h : Placed dir s) {r : SpillRecord} (hr : r ∈ s.spill.pending) (capacity : Int)
    (batch : List Value) :
    HoldsArray (perform (spillIfNeeded capacity) s).2.files r batch ↔ HoldsArray s.files r batch := by
  obtain ⟨n, hn, hpath, l, hl⟩ := h.locate hr
  refine holdsArray_congr (files_spill capacity s (FileTree.leads_save _))
    (files_spill capacity s (FileTree.sameFilesBut_save _)) hl (fun hl' => ?_) batch
  have hplace := FileTree.site_of_locate hl
  rw [hpath] at hplace
  rw [h.directory] at hl'
  exact Nat.ne_of_lt hn (place_filePath_injective hplace hl')

/-- To remove the first record's file does not touch the others. -/
theorem holdsArray_unlink (h : Placed dir s) {r : SpillRecord} {rest : List SpillRecord}
    (hp : s.spill.pending = r :: rest) {r' : SpillRecord} (hr' : r' ∈ rest) (batch : List Value) :
    HoldsArray (perform (FileTree.unlink r.path) s.files).2 r' batch ↔ HoldsArray s.files r' batch := by
  have hnamed := h.named
  have hdistinct := h.distinct
  rw [hp] at hnamed hdistinct
  obtain ⟨-, -, -, l, hl⟩ := h.locate (r := r') (by simp [hp, hr'])
  refine holdsArray_congr (FileTree.leads_unlink r.path s.files) (FileTree.sameFilesBut_unlink r.path s.files) hl
    (fun hl' => ?_) batch
  have hrest := not_placeIn_rest (fun r' hr' => (hnamed r' hr').imp fun _ h => h.2) hdistinct hl'
  exact hrest ⟨r', hr', FileTree.site_of_locate hl⟩

/-! ### A file that cannot be read -/

/-- As long as nothing is discarded, the record of a file that cannot be read stays first. -/
theorem stuck_after (h : Placed dir s) {r : SpillRecord} {rest : List SpillRecord} (hp : s.spill.pending = r :: rest)
    (hread : ∀ batch, ¬ HoldsArray s.files r batch) {d : Deed} (hd : d ≠ .discard) :
    (∃ more, (d.after s).spill.pending = r :: (rest ++ more)) ∧ ∀ batch, ¬ HoldsArray (d.after s).files r batch := by
  have hr : r ∈ s.spill.pending := by simp [hp]
  cases d with
  | push v => exact ⟨⟨[], by simpa [Deed.after] using hp⟩, hread⟩
  | spill capacity =>
    refine ⟨?_, fun batch => mt (h.holdsArray_spill hr capacity batch).1 (hread batch)⟩
    rw [Deed.after]
    rcases spillIfNeeded_cases capacity s with ⟨-, hrun⟩ | ⟨-, f, files, -, hrun⟩ | ⟨-, files, -, hrun⟩
    all_goals rw [hrun]
    · exact ⟨[], by simpa using hp⟩
    · exact ⟨[], by simpa [afterFailure] using hp⟩
    · refine ⟨[nextRecord s (overflow capacity s).length], ?_⟩
      simp [afterSpill, hp]
  | reload =>
    obtain ⟨f, hrun⟩ := perform_reload_of_unreadable hp hread
    rw [Deed.after, hrun]
    exact ⟨⟨[], by simpa using hp⟩, hread⟩
  | discard => exact absurd rfl hd

/-- **A file that cannot be read stands in the way** of all records behind it, until they are discarded. -/
theorem stuck_run (h : Placed dir s) {r : SpillRecord} {rest : List SpillRecord} (hp : s.spill.pending = r :: rest)
    (hread : ∀ batch, ¬ HoldsArray s.files r batch) {ds : List Deed} (hds : .discard ∉ ds) :
    (∃ more, (run ds s).spill.pending = r :: (rest ++ more)) ∧
      ∃ f, perform Spill.reload (run ds s) = (.error (readFailure r.path f), run ds s) := by
  induction ds generalizing s rest with
  | nil => exact ⟨⟨[], by simpa [run] using hp⟩, perform_reload_of_unreadable hp hread⟩
  | cons d ds ih =>
    rw [List.mem_cons, not_or] at hds
    obtain ⟨hd, hds⟩ := hds
    obtain ⟨⟨more, hp'⟩, hread'⟩ := h.stuck_after hp hread (Ne.symm hd)
    obtain ⟨⟨more', hp''⟩, hreload⟩ := ih (h.after d) hp' hread' hds
    refine ⟨⟨more ++ more', ?_⟩, hreload⟩
    rw [← List.append_assoc]
    exact hp''

/-! ### Files that can be read -/

/-- **Successive reloads** put a later batch before an earlier one. -/
theorem reload_many (h : Placed dir s) {bs : List (List Value)}
    (hb : List.Forall₂ (HoldsArray s.files) s.spill.pending bs) {m : Nat} (hm : m ≤ s.spill.pending.length) :
    (run (List.replicate m .reload) s).buffer = (bs.take m).reverse.flatten ++ s.buffer ∧
      (run (List.replicate m .reload) s).spill.pending = s.spill.pending.drop m := by
  induction m generalizing s bs with
  | zero => exact ⟨rfl, rfl⟩
  | succ m ih =>
    rcases hp : s.spill.pending with _ | ⟨r, rest⟩ <;> rw [hp] at hb hm
    · exact absurd hm (Nat.not_succ_le_zero m)
    obtain ⟨b, bs, hfirst, hrest, rfl⟩ := List.forall₂_cons_left_iff.1 hb
    have hrun : Deed.reload.after s = afterReload s r b := by rw [Deed.after, perform_reload_of_holdsArray hp hfirst]
    have hpending : (Deed.reload.after s).spill.pending = rest := by rw [hrun, afterReload, hp, List.tail_cons]
    have hholds : List.Forall₂ (HoldsArray (Deed.reload.after s).files) (Deed.reload.after s).spill.pending bs := by
      rw [hpending, hrun]
      have hmem := (List.forall₂_and_left (p := (· ∈ rest)) rest bs).2 ⟨fun r' hr' => hr', hrest⟩
      exact hmem.imp fun r' b' hb' => (h.holdsArray_unlink hp hb'.1 b').2 hb'.2
    obtain ⟨hbuffer, hleft⟩ := ih (h.after .reload) hholds (by rw [hpending]; exact Nat.le_of_succ_le_succ hm)
    rw [List.replicate_succ, run, List.foldl_cons, ← run, hbuffer, hleft, hpending, hrun]
    refine ⟨?_, rfl⟩
    rw [List.take_succ_cons, List.reverse_cons, List.flatten_append, List.flatten_singleton, List.append_assoc]
    rfl

end Placed

/-! ### What comes back -/

/-- What is read from a file can be told from its JSON text. -/
theorem HoldsArray.isJson {fs : FileTree} {r : SpillRecord} {batch : List Value} (h : HoldsArray fs r batch) :
    ∀ v ∈ batch, v.isJson = true := by
  obtain ⟨t, -, hread⟩ := h
  rw [Json.readOrFail] at hread
  cases hvalue : Json.read t.foldLineEnds with
  | error e =>
    rw [hvalue] at hread
    cases hread
  | ok v =>
    rw [hvalue] at hread
    cases hread
    exact Value.areJson_iff.1 (Json.isJson_of_read hvalue)

/-- What was spilled while nothing was pending comes back as it was exactly if it can be told from its JSON text. -/
theorem reload_spilled_iff {s t : SpillState} (hp : s.spill.pending = []) {capacity : Int} {w : Option SpillRecord}
    (hrun : perform (spillIfNeeded capacity) s = (.ok w, t)) :
    (perform reload t).2.buffer = s.buffer ↔ ∀ v ∈ overflow capacity s, v.isJson = true := by
  rcases spillIfNeeded_cases capacity s with ⟨hle, h'⟩ | ⟨-, f, files, -, h'⟩ | ⟨hlt, files, hwrite, h'⟩
  all_goals rw [hrun] at h'
  all_goals cases h'
  · have hnone : overflow capacity s = [] := by
      rw [overflow, Buffer.peekFront, Int.toNat_of_nonpos (by omega), List.take_zero]
    rw [perform_reload_nil hp, hnone]
    simp
  · have hpending : (afterSpill capacity s files).spill.pending =
        nextRecord s (overflow capacity s).length :: [] := by rw [afterSpill, hp, List.nil_append]
    have hsplit : overflow capacity s ++ (afterSpill capacity s files).buffer = s.buffer :=
      Buffer.peekFront_append_dropFront _ _
    have hholds : Holds files (nextRecord s (overflow capacity s).length) (overflow capacity s) :=
      FileTree.node?_of_save hwrite
    constructor
    · intro hback
      by_cases hread : ∃ batch, HoldsArray (afterSpill capacity s files).files
          (nextRecord s (overflow capacity s).length) batch
      · obtain ⟨batch, hread⟩ := hread
        rw [perform_reload_of_holdsArray hpending hread, ← hsplit] at hback
        obtain rfl : batch = overflow capacity s := List.append_cancel_right hback
        exact hread.isJson
      · obtain ⟨f, hreload⟩ := perform_reload_of_unreadable hpending (not_exists.1 hread)
        rw [hreload, ← hsplit] at hback
        have hnone : overflow capacity s = [] := List.self_eq_append_left.1 hback
        simp [hnone]
    · intro hjson
      rw [perform_reload_of_holdsArray hpending (hholds.holdsArray hjson)]
      exact hsplit

/-- **The effect of a reload**, whatever has become of the files. If the first record's file holds an array, then its
values are put in front of the buffer, the record is pending no more and its file is gone; nothing else changes. If
not, nothing changes, and whatever is done except a discard, all records stay behind that one and every reload fails.
Successive reloads of files that can be read put the later batches before the earlier ones. And a spill while nothing
is pending is undone by a reload exactly if what was spilled can be told from its JSON text. -/
theorem reload_effect {dir : Path} {s : SpillState} (h : Reached dir s) :
    (∀ r rest, s.spill.pending = r :: rest →
      (∀ batch, HoldsArray s.files r batch → ∃ l, s.files.locate r.path = .ok l ∧
        perform reload s =
          (.ok (some r),
            { s with
              buffer := batch ++ s.buffer
              spill := { s.spill with pending := rest }
              files := s.files.remove l })) ∧
      ((∀ batch, ¬ HoldsArray s.files r batch) →
        (∃ f, perform reload s = (.error (readFailure r.path f), s)) ∧
        ∀ ds, .discard ∉ ds →
          (∃ more, (run ds s).spill.pending = r :: (rest ++ more)) ∧
          ∃ f, perform reload (run ds s) = (.error (readFailure r.path f), run ds s))) ∧
    (∀ bs, List.Forall₂ (HoldsArray s.files) s.spill.pending bs → ∀ m ≤ s.spill.pending.length,
      (run (List.replicate m .reload) s).buffer = (bs.take m).reverse.flatten ++ s.buffer ∧
      (run (List.replicate m .reload) s).spill.pending = s.spill.pending.drop m) ∧
    (s.spill.pending = [] → ∀ (capacity : Int) w t, perform (spillIfNeeded capacity) s = (.ok w, t) →
      ((perform reload t).2.buffer = s.buffer ↔ ∀ v ∈ overflow capacity s, v.isJson = true)) := by
  have hplaced := h.placed
  refine ⟨fun r rest hp => ⟨fun batch hbatch => ?_, fun hread => ?_⟩, fun bs hb m hm => hplaced.reload_many hb hm,
    fun hp capacity w t hrun => reload_spilled_iff hp hrun⟩
  · obtain ⟨t, hnode, -⟩ := id hbatch
    obtain ⟨l, hl, hn⟩ := FileTree.node?_eq_some_iff.1 hnode
    refine ⟨l, hl, ?_⟩
    rw [perform_reload_of_holdsArray hp hbatch, afterReload, hp, FileTree.perform_unlink hl hn]
    rfl
  · exact ⟨perform_reload_of_unreadable hp hread, fun ds hds => hplaced.stuck_run hp hread hds⟩

/-- Two records, of one value each. -/
def twoSpilled : SpillState := run [.push "a", .push "b", .spill 1, .spill 0] vacant

/-- The same, with another text in the first file. -/
def firstDamaged : SpillState :=
  { twoSpilled with files := twoSpilled.files.put ["spill", fileName 1] (.file "oops") }

theorem reached_twoSpilled : Reached ⟨[], ["spill"]⟩ twoSpilled := (Reached.fresh rfl).run _

theorem reached_firstDamaged : Reached ⟨[], ["spill"]⟩ firstDamaged := by
  refine reached_twoSpilled.disturbed _ fun _ => ?_
  decide +kernel

theorem reload_effect_twoSpilled :
    (run (List.replicate 2 .reload) twoSpilled).buffer = [.text "b", .text "a"] ∧
      ∃ r rest, firstDamaged.spill.pending = r :: rest ∧
        ∃ f, perform reload firstDamaged = (.error (readFailure r.path f), firstDamaged) := by
  obtain ⟨-, hmany, -⟩ := reload_effect reached_twoSpilled
  obtain ⟨hone, -⟩ := reload_effect reached_firstDamaged
  have hfirst : twoSpilled.spill.pending =
      [⟨filePath ⟨[], ["spill"]⟩ 1, 0, 1⟩, ⟨filePath ⟨[], ["spill"]⟩ 2, 1, 1⟩] := by decide +kernel
  have hbatches : List.Forall₂ (HoldsArray twoSpilled.files) twoSpilled.spill.pending [[.text "a"], [.text "b"]] := by
    rw [hfirst]
    refine .cons ⟨Json.write .spaced (.array [.text "a"]), ?_, ?_⟩
      (.cons ⟨Json.write .spaced (.array [.text "b"]), ?_, ?_⟩ .nil)
    · decide +kernel
    · exact Json.readOrFail_write (by decide)
    · decide +kernel
    · exact Json.readOrFail_write (by decide)
  refine ⟨(hmany _ hbatches 2 (by rw [hfirst]; decide)).1, _, _, hfirst, ?_⟩
  refine ((hone _ _ hfirst).2 ?_).1
  rintro batch ⟨t, hnode, hread⟩
  have hdamaged : firstDamaged.files.node? (filePath ⟨[], ["spill"]⟩ 1) = some (.file "oops") := by decide +kernel
  rw [hdamaged] at hnode
  cases hnode
  cases hread

/-- A row with one cell more than it has names for. -/
def surplusRow : Value := .object [(.name "n", .text "1"), (.surplus, .array [.text "2"])]

/-- What a surplus cell stood under comes back as a name. -/
theorem surplus_comes_back_named :
    (perform reload (perform (spillIfNeeded 0) { vacant with buffer := [surplusRow] }).2).2.buffer =
        [.object [(.name "n", .text "1"), (.name "null", .array [.text "2"])]] ∧
      (perform reload (perform (spillIfNeeded 0) { vacant with buffer := [surplusRow] }).2).2.buffer ≠ [surplusRow] := by
  have hback : (perform reload (perform (spillIfNeeded 0) { vacant with buffer := [surplusRow] }).2).2.buffer =
      [.object [(.name "n", .text "1"), (.name "null", .array [.text "2"])]] := by rfl
  refine ⟨hback, ?_⟩
  rw [hback]
  decide

end Spill

end EventPipeline
