import EventPipeline.Files.Tree
import EventPipeline.Proofs.Fallible

/-!
# What file operations leave alone

An operation on the file at one path leaves every file at another path as it was, and every
directory a directory (`KeepsBut`). Where a path leads is fixed by its names alone, as long as it
leads anywhere (`site_of_walk`), so that two files of one directory are told apart by their names
whatever happens to the tree meanwhile.

* `node?_of_keepsBut`: a file whose place is not touched can still be read.
* `leads_save`, `leads_unlink`: writing and removing a file touch its place only.
* `node?_of_save`: after a write that succeeded the file holds the text.
-/

namespace EventPipeline

namespace FileTree

/-! ### Places -/

/-- Where names lead from a location, if every directory on the way is there. -/
def site : Location → List Text → Option Location
  | loc, [] => some loc
  | loc, name :: names =>
    if name = Path.up then
      if loc = [] then none else site loc.dropLast names
    else site (loc ++ [name]) names

/-- Names that can be followed lead to their place. -/
theorem site_of_walk {fs : FileTree} {names : List Text} {loc l : Location} (h : fs.walk loc names = .ok l) :
    site loc names = some l := by
  induction names generalizing loc with
  | nil => simpa [walk, site] using h
  | cons name names ih =>
    rw [walk] at h
    split at h
    · cases h
    · cases h
    · rw [site]
      split_ifs at h ⊢ with hup hroot
      · exact ih h
      · exact ih h

theorem site_append (loc : Location) (names more : List Text) :
    site loc (names ++ more) = (site loc names).bind fun l => site l more := by
  induction names generalizing loc with
  | nil => rfl
  | cons name names ih =>
    simp only [List.cons_append, site]
    split_ifs with hup hroot
    · rfl
    · exact ih _
    · exact ih _

theorem site_singleton {loc : Location} {name : Text} (h : name ≠ Path.up) : site loc [name] = some (loc ++ [name]) := by
  simp [site, h]

/-- Two children of one path have different places. -/
theorem site_child_ne {p : Path} {x y : Text} (hx : x ≠ Path.up) (hy : y ≠ Path.up) (hxy : x ≠ y) {l : Location}
    (h : site [] (p.child x).names = some l) : site [] (p.child y).names ≠ some l := by
  intro h'
  simp only [Path.child, site_append] at h h'
  obtain ⟨d, hd, hl⟩ := Option.bind_eq_some_iff.1 h
  rw [hd, Option.bind_some, site_singleton hy] at h'
  rw [site_singleton hx] at hl
  have := (Option.some.inj hl).trans (Option.some.inj h').symm
  simp only [List.append_cancel_left_eq, List.cons.injEq, and_true] at this
  exact hxy this

/-! ### What is kept -/

/-- Directories stay directories, and files stay as they are, except for files at certain places. -/
structure KeepsBut (S : Location → Prop) (fs fs' : FileTree) : Prop where
  /-- The working directory is the same. -/
  working : fs'.working = fs.working
  /-- Directories stay. -/
  directory : ∀ loc, fs.nodeAt? loc = some .directory → fs'.nodeAt? loc = some .directory
  /-- Files stay, except at those places. -/
  file : ∀ loc t, ¬ S loc → fs.nodeAt? loc = some (.file t) → fs'.nodeAt? loc = some (.file t)

instance (S : Location → Prop) : IsPreorder FileTree (KeepsBut S) where
  refl _ := ⟨rfl, fun _ h => h, fun _ _ _ h => h⟩
  trans _ _ _ h h' :=
    ⟨h'.working.trans h.working, fun l hl => h'.directory l (h.directory l hl),
      fun l t hS hl => h'.file l t hS (h.file l t hS hl)⟩

theorem KeepsBut.mono {S T : Location → Prop} (hST : ∀ l, S l → T l) {fs fs' : FileTree} (h : KeepsBut S fs fs') :
    KeepsBut T fs fs' := ⟨h.working, h.directory, fun l t hT => h.file l t fun hS => hT (hST l hS)⟩

theorem walk_of_keepsBut {S : Location → Prop} {fs fs' : FileTree} (h : KeepsBut S fs fs') {names : List Text}
    {loc l : Location} (hw : fs.walk loc names = .ok l) : fs'.walk loc names = .ok l := by
  induction names generalizing loc with
  | nil => exact hw
  | cons name names ih =>
    rw [walk] at hw
    split at hw
    · cases hw
    · cases hw
    · rename_i hd
      rw [walk, h.directory loc hd]
      dsimp only
      split_ifs at hw ⊢ with hup hroot
      · exact ih hw
      · exact ih hw

theorem locate_of_keepsBut {S : Location → Prop} {fs fs' : FileTree} (h : KeepsBut S fs fs') {p : Path} {l : Location}
    (hl : fs.locate p = .ok l) : fs'.locate p = .ok l := by
  unfold locate at hl ⊢
  rw [h.working]
  split_ifs at hl ⊢
  exact walk_of_keepsBut h hl

theorem site_of_locate {fs : FileTree} {p : Path} {l : Location} (h : fs.locate p = .ok l) :
    site [] p.names = some l := by
  unfold locate at h
  split_ifs at h
  exact site_of_walk h

/-- What stands at a path, found by its location. -/
theorem node?_eq_some_iff {fs : FileTree} {p : Path} {n : Node} :
    fs.node? p = some n ↔ ∃ l, fs.locate p = .ok l ∧ fs.nodeAt? l = some n := by
  unfold node?
  cases fs.locate p <;> simp

/-- A file that has its place elsewhere stays. -/
theorem node?_of_keepsBut {S : Location → Prop} {fs fs' : FileTree} (h : KeepsBut S fs fs') {p : Path} {t : Text}
    (hS : ∀ l, site [] p.names = some l → ¬ S l) (hp : fs.node? p = some (.file t)) :
    fs'.node? p = some (.file t) := by
  obtain ⟨l, hl, hn⟩ := node?_eq_some_iff.1 hp
  exact node?_eq_some_iff.2 ⟨l, locate_of_keepsBut h hl, h.file l t (hS l (site_of_locate hl)) hn⟩

/-! ### Changes at one location -/

theorem nodeAt?_put {fs : FileTree} {loc other : Location} {n : Node} (ho : other ≠ []) :
    (fs.put loc n).nodeAt? other = if loc = other then some n else fs.nodeAt? other := by
  simp only [nodeAt?, ho, if_false, put, Table.find?_set]

theorem nodeAt?_nil (fs : FileTree) : fs.nodeAt? [] = some .directory := rfl

/-- A node may be put where no directory is; where nothing is, no file is lost. -/
theorem keepsBut_put {S : Location → Prop} {fs : FileTree} {loc : Location} (n : Node)
    (hd : fs.nodeAt? loc ≠ some .directory) (hS : ∀ t, fs.nodeAt? loc = some (.file t) → S loc) :
    KeepsBut S fs (fs.put loc n) := by
  refine ⟨rfl, fun l hl => ?_, fun l t hSl hl => ?_⟩
  · by_cases h0 : l = []
    · rw [h0, nodeAt?_nil]
    · rw [nodeAt?_put h0, if_neg, hl]
      rintro rfl
      exact hd hl
  · have h0 : l ≠ [] := by rintro rfl; simp [nodeAt?_nil] at hl
    rw [nodeAt?_put h0, if_neg, hl]
    rintro rfl
    exact hSl (hS t hl)

theorem keepsBut_put_new (S : Location → Prop) {fs : FileTree} {loc : Location} (n : Node)
    (h : fs.nodeAt? loc = none) : KeepsBut S fs (fs.put loc n) :=
  keepsBut_put n (by simp [h]) (by simp [h])

theorem keepsBut_put_file {S : Location → Prop} {fs : FileTree} {loc : Location} {t : Text} (n : Node)
    (h : fs.nodeAt? loc = some (.file t)) (hS : S loc) : KeepsBut S fs (fs.put loc n) :=
  keepsBut_put n (by simp [h]) fun _ _ => hS

theorem keepsBut_remove {fs : FileTree} {loc : Location} {t : Text} (h : fs.nodeAt? loc = some (.file t)) :
    KeepsBut (· = loc) fs (fs.remove loc) := by
  refine ⟨rfl, fun l hl => ?_, fun l u hne hl => ?_⟩
  · by_cases h0 : l = []
    · rw [h0, nodeAt?_nil]
    · have hne : loc ≠ l := by rintro rfl; rw [h] at hl; cases hl
      simpa only [nodeAt?, h0, if_false, remove, Table.find?_erase _ hne] using hl
  · have h0 : l ≠ [] := by rintro rfl; simp [nodeAt?_nil] at hl
    simpa only [nodeAt?, h0, if_false, remove, Table.find?_erase _ (Ne.symm hne)] using hl

/-! ### Operations -/

/-- The place of a path, as far as there is one. -/
def PlaceOf (p : Path) (l : Location) : Prop := site [] p.names = some l

theorem leads_openFile (p : Path) (start : Text → Text) : Leads (KeepsBut (PlaceOf p)) (openFile p start) := by
  apply Leads.get_bind
  intro fs
  cases hl : fs.locate p with
  | error e => exact refl_of (KeepsBut _) fs
  | ok l =>
    rcases hn : fs.nodeAt? l with _ | t | _ <;> simp only [hn, perform_set, perform_throw]
    · exact keepsBut_put_new _ _ hn
    · exact keepsBut_put_file _ hn (site_of_locate hl)
    · exact refl_of (KeepsBut _) fs

theorem leads_extend (p : Path) (t : Text) : Leads (KeepsBut (PlaceOf p)) (extend p t) := by
  unfold extend
  cases Text.unencodableRun? t with
  | some run => exact Leads.throw _
  | none => exact leads_openFile p _

theorem leads_write (p : Path) (t : Text) : Leads (KeepsBut (PlaceOf p)) (write p t) :=
  Leads.bind (leads_openFile p _) fun _ => leads_extend p t

/-! ### Directories -/

section Directories

variable {R : FileTree → FileTree → Prop} [IsPreorder FileTree R]

/-- Making a directory does what putting one where nothing stands does. -/
theorem leads_makeDirectory (hnew : ∀ fs loc, fs.nodeAt? loc = none → R fs (fs.put loc .directory)) (p : Path) :
    Leads R (makeDirectory p) := by
  apply Leads.get_bind
  intro fs
  cases hl : fs.locate p with
  | error e => exact refl_of R fs
  | ok l =>
    rcases hn : fs.nodeAt? l with _ | t | _ <;> simp only [hn, perform_set, perform_throw, perform_pure]
    · exact hnew fs l hn
    · exact refl_of R fs
    · exact refl_of R fs

/-- So does making a directory and the missing ones above it. -/
theorem leads_makeDirectories (hnew : ∀ fs loc, fs.nodeAt? loc = none → R fs (fs.put loc .directory)) (levels : Nat)
    (p : Path) : Leads R (makeDirectories levels p) := by
  induction levels generalizing p with
  | zero => exact leads_makeDirectory hnew p
  | succ levels ih =>
    unfold makeDirectories
    apply Leads.get_bind
    intro fs
    split
    · exact Leads.bind (ih p.parent) (fun _ => leads_makeDirectory hnew p) fs
    · exact leads_makeDirectory hnew p fs

end Directories

/-! ### Files -/

/-- Writing a file touches no other file, also when it fails. -/
theorem leads_save (p : Path) (t : Text) : Leads (KeepsBut (PlaceOf p)) (save p t) :=
  Leads.bind (leads_makeDirectories (fun _ _ => keepsBut_put_new _ _) _ _) fun _ => leads_write p t

/-- A file that is there can be removed. -/
theorem perform_unlink {fs : FileTree} {p : Path} {l : Location} {t : Text} (hl : fs.locate p = .ok l)
    (hn : fs.nodeAt? l = some (.file t)) : perform (unlink p) fs = (.ok ⟨⟩, fs.remove l) := by
  rw [unlink, perform_bind_ok (perform_get fs), hl]
  simp only [hn, perform_set]

/-- Removing a file touches no other file. -/
theorem leads_unlink (p : Path) : Leads (KeepsBut (PlaceOf p)) (unlink p) := by
  apply Leads.get_bind
  intro fs
  cases hl : fs.locate p with
  | error e => cases e <;> exact refl_of (KeepsBut _) fs
  | ok l =>
    rcases hn : fs.nodeAt? l with _ | t | _ <;> simp only [hn, perform_set, perform_throw, perform_pure]
    · exact refl_of (KeepsBut _) fs
    · exact (keepsBut_remove hn).mono fun l' hl' => hl' ▸ site_of_locate hl
    · exact refl_of (KeepsBut _) fs

/-- The file at a path can be read, which changes nothing. -/
theorem perform_read {fs : FileTree} {p : Path} {t : Text} (h : fs.node? p = some (.file t)) :
    perform (read p) fs = (.ok t, fs) := by
  obtain ⟨l, hl, hn⟩ := node?_eq_some_iff.1 h
  rw [read, perform_bind_ok (perform_get fs), hl]
  simp only [hn, perform_pure]

/-- What comes of reading a file: its text, or a failure if there is none; nothing changes. -/
theorem read_cases (p : Path) (fs : FileTree) :
    (∃ t, fs.node? p = some (.file t) ∧ perform (read p) fs = (.ok t, fs)) ∨
      ((∀ t, fs.node? p ≠ some (.file t)) ∧ ∃ f, perform (read p) fs = (.error f, fs)) := by
  rcases hnode : fs.node? p with _ | t | _
  · refine .inr ⟨by simp, ?_⟩
    rw [read, perform_bind_ok (perform_get fs)]
    rw [node?] at hnode
    cases hl : fs.locate p with
    | error e => exact ⟨_, rfl⟩
    | ok l =>
      simp only [hl] at hnode
      simp only [hnode]
      exact ⟨_, rfl⟩
  · exact .inl ⟨t, rfl, perform_read hnode⟩
  · obtain ⟨l, hl, hn⟩ := node?_eq_some_iff.1 hnode
    refine .inr ⟨by simp, ?_⟩
    rw [read, perform_bind_ok (perform_get fs), hl]
    simp only [hn]
    exact ⟨_, rfl⟩

/-- The text of the file at a path, empty if there is none. -/
def textAt (fs : FileTree) (p : Path) : Text :=
  match fs.node? p with
  | some (.file t) => t
  | _ => []

/-- A file that could be opened holds what it was opened with. -/
theorem node?_of_openFile {fs fs' : FileTree} {p : Path} {start : Text → Text}
    (h : perform (openFile p start) fs = (.ok ⟨⟩, fs')) : fs'.node? p = some (.file (start (fs.textAt p))) := by
  have hk := leads_openFile p start fs
  rw [h] at hk
  rw [openFile, perform_bind_ok (perform_get fs)] at h
  cases hl : fs.locate p with
  | error e => simp [hl] at h
  | ok l =>
    have h0 : fs.nodeAt? l ≠ some .directory → l ≠ [] := by rintro hd rfl; exact hd rfl
    have ht : fs.node? p = fs.nodeAt? l := by simp [node?, hl]
    refine node?_eq_some_iff.2 ⟨l, locate_of_keepsBut hk hl, ?_⟩
    rw [textAt, ht]
    rcases hn : fs.nodeAt? l with _ | t | _ <;> simp only [hl, hn, perform_set, perform_throw] at h
    · cases h
      rw [nodeAt?_put (h0 (by simp [hn])), if_pos rfl]
    · cases h
      rw [nodeAt?_put (h0 (by simp [hn])), if_pos rfl]
    · cases h

/-- **A write that succeeded** leaves a file with exactly the text, which has a UTF-8 form. -/
theorem node?_of_save {fs fs' : FileTree} {p : Path} {t : Text} (h : perform (save p t) fs = (.ok ⟨⟩, fs')) :
    fs'.node? p = some (.file t) := by
  rw [save, perform_bind] at h
  split at h <;> rename_i fs₁ _
  · rw [write, perform_bind] at h
    split at h <;> rename_i fs₂ hopen
    · have h₂ := node?_of_openFile hopen
      rw [extend] at h
      split at h
      · cases h
      · have h₃ := node?_of_openFile h
        simpa [textAt, h₂] using h₃
    · cases h
  · cases h

end FileTree

end EventPipeline
