import EventPipeline.Proofs.Files.Content

/-!
# What becomes of each place

Which files stand in a tree after an operation, whether it succeeded or failed (`SameFilesBut`), and what
can have happened at a place that a removal may touch (`Pruned`).

* `save_cases`: a write that fails leaves all files as they were, unless the text has no UTF-8 form. Then
  the file has been opened already, and stands there without content.
* `isDirectory_of_makePath`, `not_isDirectory_of_makePath`, `sameNamed_makePath`: a directory is made, or
  none stands at the path; other entries are made on the way to it only.
* `unlink_cases`, `removeIfEmpty_cases`: what is removed.
-/

namespace EventPipeline

theorem Table.find?_erase_self {κ α : Type} [DecidableEq κ] (t : Table κ α) (key : κ) :
    (t.erase key).find? key = none := by
  rw [find?_eq_none_iff, keys, erase]
  simp

namespace FileTree

/-! ### The same files -/

/-- The same files with the same content stand in two trees, except at certain places. -/
structure SameFilesBut (S : Location → Prop) (fs fs' : FileTree) : Prop where
  /-- The working directory is the same. -/
  working : fs'.working = fs.working
  /-- What is a file in one tree is the same file in the other. -/
  file : ∀ loc t, ¬ S loc → (fs'.nodeAt? loc = some (.file t) ↔ fs.nodeAt? loc = some (.file t))

/-- The same files with the same content stand in two trees. -/
abbrev SameFiles : FileTree → FileTree → Prop := SameFilesBut fun _ => False

instance (S : Location → Prop) : IsPreorder FileTree (SameFilesBut S) where
  refl _ := ⟨rfl, fun _ _ _ => Iff.rfl⟩
  trans _ _ _ h h' := ⟨h'.working.trans h.working, fun l t hS => (h'.file l t hS).trans (h.file l t hS)⟩

theorem SameFilesBut.mono {S T : Location → Prop} (hST : ∀ l, S l → T l) {fs fs' : FileTree}
    (h : SameFilesBut S fs fs') : SameFilesBut T fs fs' :=
  ⟨h.working, fun l t hT => h.file l t fun hS => hT (hST l hS)⟩

theorem SameFilesBut.of_same (S : Location → Prop) {fs fs' : FileTree} (h : SameFiles fs fs') : SameFilesBut S fs fs' :=
  h.mono fun _ => False.elim

/-- A directory where nothing was is no file. -/
theorem sameFiles_put_directory (fs : FileTree) (loc : Location) (h : fs.nodeAt? loc = none) :
    SameFiles fs (fs.put loc .directory) := by
  refine ⟨rfl, fun l t _ => ?_⟩
  by_cases h0 : l = []
  · rw [h0, nodeAt?_nil, nodeAt?_nil]
  · rw [nodeAt?_put h0]
    by_cases hl : loc = l
    · rw [if_pos hl, ← hl, h]
      simp
    · rw [if_neg hl]

/-- A file that is put somewhere is put nowhere else. -/
theorem sameFilesBut_put (fs : FileTree) (loc : Location) (n : Node) : SameFilesBut (· = loc) fs (fs.put loc n) := by
  refine ⟨rfl, fun l t hne => ?_⟩
  by_cases h0 : l = []
  · rw [h0, nodeAt?_nil, nodeAt?_nil]
  · rw [nodeAt?_put h0, if_neg (Ne.symm hne)]

theorem sameFiles_makePath (p : Path) : Leads SameFiles (makePath p) :=
  leads_makeDirectories sameFiles_put_directory _ p

/-! ### Directories and what stands in them -/

theorem walk_append (fs : FileTree) (loc : Location) (names more : List Text) :
    fs.walk loc (names ++ more) = (fs.walk loc names).bind fun l => fs.walk l more := by
  induction names generalizing loc with
  | nil => rfl
  | cons name names ih =>
    rw [List.cons_append, walk, walk]
    rcases fs.nodeAt? loc with _ | _ | _
    · rfl
    · rfl
    · dsimp only
      split_ifs
      · rfl
      · exact ih _
      · exact ih _

theorem isDirectory_iff {fs : FileTree} {p : Path} :
    fs.isDirectory p = true ↔ ∃ l, fs.locate p = .ok l ∧ fs.nodeAt? l = some .directory := by
  rw [isDirectory, beq_iff_eq, node?_eq_some_iff]

theorem isDirectory_of_keepsBut {S : Location → Prop} {fs fs' : FileTree} (h : KeepsBut S fs fs') {p : Path}
    (hp : fs.isDirectory p = true) : fs'.isDirectory p = true := by
  obtain ⟨l, hl, hn⟩ := isDirectory_iff.1 hp
  exact isDirectory_iff.2 ⟨l, locate_of_keepsBut h hl, h.directory l hn⟩

theorem locate_child (fs : FileTree) (p : Path) (name : Text) :
    fs.locate (p.child name) = (fs.locate p).bind fun l => fs.walk l [name] := by
  unfold locate Path.child
  dsimp only
  split_ifs
  · exact fs.walk_append [] p.names [name]
  · rfl

/-- What is found below a path is found in a directory. -/
theorem isDirectory_of_child {fs : FileTree} {p : Path} {name : Text} {l : Location}
    (h : fs.locate (p.child name) = .ok l) : fs.isDirectory p = true := by
  rw [locate_child] at h
  cases hp : fs.locate p with
  | error e =>
    rw [hp] at h
    cases h
  | ok d =>
    refine isDirectory_iff.2 ⟨d, hp, ?_⟩
    rw [hp, Except.bind, walk] at h
    split at h
    · cases h
    · cases h
    · assumption

/-- The names in a directory are found in it. -/
theorem locate_child_of_directory {fs : FileTree} {p : Path} {d : Location} (hp : fs.locate p = .ok d)
    (hd : fs.nodeAt? d = some .directory) {name : Text} (hname : name ≠ Path.up) :
    fs.locate (p.child name) = .ok (d ++ [name]) := by
  rw [locate_child, hp, Except.bind, walk, hd]
  simp [hname, walk]

theorem isDirectory_parent {fs : FileTree} {p : Path} (h : fs.isDirectory p = true) : fs.isDirectory p.parent = true := by
  by_cases hnames : p.names = []
  · have hparent : p.parent = p := by
      rw [Path.parent, hnames, List.dropLast_nil, ← hnames]
    rwa [hparent]
  · have hchild : p.parent.child (p.names.getLast hnames) = p := by
      rw [Path.child, Path.parent, List.dropLast_concat_getLast]
    obtain ⟨l, hl, -⟩ := isDirectory_iff.1 h
    rw [← hchild] at hl
    exact isDirectory_of_child hl

/-! ### Writing -/

/-- To open a file touches no other file. -/
theorem sameFilesBut_openFile (p : Path) (start : Text → Text) : Leads (SameFilesBut (PlaceOf p)) (openFile p start) := by
  apply Leads.get_bind
  intro fs
  cases hl : fs.locate p with
  | error e => exact refl_of (SameFilesBut _) fs
  | ok l =>
    have hput : ∀ n, SameFilesBut (PlaceOf p) fs (fs.put l n) := fun n =>
      (sameFilesBut_put fs l n).mono fun l' hl' => hl' ▸ site_of_locate hl
    rcases hn : fs.nodeAt? l with _ | t | _ <;> simp only [hn, perform_set, perform_throw]
    · exact hput _
    · exact hput _
    · exact refl_of (SameFilesBut _) fs

/-- A file that is there can be opened. -/
theorem openFile_of_node? {fs : FileTree} {p : Path} {t : Text} (h : fs.node? p = some (.file t)) (start : Text → Text) :
    ∃ fs', perform (openFile p start) fs = (.ok ⟨⟩, fs') := by
  obtain ⟨l, hl, hn⟩ := node?_eq_some_iff.1 h
  rw [openFile, perform_bind_ok (perform_get fs), hl]
  simp only [hn, perform_set]
  exact ⟨_, rfl⟩

/-- Makes the directory of a file and opens the file anew. -/
def prepare (p : Path) : FileAction Unit := do
  makePath p.parent
  openFile p fun _ => []

theorem perform_save (p : Path) (t : Text) (fs : FileTree) :
    perform (save p t) fs = perform (prepare p >>= fun _ => extend p t) fs := by
  rw [save, prepare, write, bind_assoc]

/-- All files are as they were, or the file is there and empty. -/
theorem prepare_cases (p : Path) (fs : FileTree) :
    (∃ f fs', perform (prepare p) fs = (.error f, fs') ∧ SameFiles fs fs') ∨
      ∃ fs', perform (prepare p) fs = (.ok ⟨⟩, fs') ∧ fs'.node? p = some (.file []) ∧
        SameFilesBut (PlaceOf p) fs fs' := by
  have hmade := sameFiles_makePath p.parent fs
  rw [prepare, perform_bind]
  rcases hdir : perform (makePath p.parent) fs with ⟨f | ⟨⟩, fs₁⟩ <;> rw [hdir] at hmade
  · exact .inl ⟨f, fs₁, rfl, hmade⟩
  have hopened := sameFilesBut_openFile p (fun _ => []) fs₁
  rcases openFile_cases p (fun _ => []) fs₁ with ⟨f, hopen⟩ | ⟨fs₂, hopen, hnode⟩
  · exact .inl ⟨f, fs₁, hopen, hmade⟩
  · rw [hopen] at hopened
    exact .inr ⟨fs₂, hopen, hnode, trans_of (SameFilesBut _) (hmade.of_same _) hopened⟩

/-- A text is added to a file that is there, unless it has no UTF-8 form. -/
theorem extend_cases {fs : FileTree} {p : Path} {content : Text} (h : fs.node? p = some (.file content)) (t : Text) :
    (t.isEncodable = false ∧ ∃ f, perform (extend p t) fs = (.error f, fs)) ∨
      (t.isEncodable = true ∧ ∃ fs', perform (extend p t) fs = (.ok ⟨⟩, fs') ∧
        fs'.node? p = some (.file (content ++ t)) ∧ SameFilesBut (PlaceOf p) fs fs') := by
  rw [extend]
  cases hrun : Text.unencodableRun? t with
  | some run =>
    have hne : t.isEncodable ≠ true := by
      rw [Ne, ← Text.unencodableRun?_eq_none_iff, hrun]
      simp
    exact .inl ⟨Bool.eq_false_iff.2 hne, run.toFailure, rfl⟩
  | none =>
    have hopened := sameFilesBut_openFile p (· ++ t) fs
    obtain ⟨fs', hopen⟩ := openFile_of_node? h (· ++ t)
    rw [hopen] at hopened
    have hnode := node?_of_openFile hopen
    rw [textAt, h] at hnode
    exact .inr ⟨(Text.unencodableRun?_eq_none_iff t).1 hrun, fs', hopen, hnode, hopened⟩

/-- **What comes of writing a file**: the directory cannot be made or the file cannot be opened, and all files
are as they were; or the text has no UTF-8 form, and the file is there and empty; or the file holds the text. -/
theorem save_cases (p : Path) (t : Text) (fs : FileTree) :
    (∃ f fs', perform (save p t) fs = (.error f, fs') ∧ perform (prepare p) fs = (.error f, fs') ∧ SameFiles fs fs') ∨
    (t.isEncodable = false ∧ ∃ f fs', perform (save p t) fs = (.error f, fs') ∧ fs'.node? p = some (.file []) ∧
      SameFilesBut (PlaceOf p) fs fs') ∨
    (t.isEncodable = true ∧ ∃ fs', perform (save p t) fs = (.ok ⟨⟩, fs') ∧ fs'.node? p = some (.file t) ∧
      SameFilesBut (PlaceOf p) fs fs') := by
  rw [perform_save]
  rcases prepare_cases p fs with ⟨f, fs₁, hprepare, hsame⟩ | ⟨fs₁, hprepare, hempty, hsame⟩
  · exact .inl ⟨f, fs₁, by rw [perform_bind, hprepare], hprepare, hsame⟩
  · right
    rw [perform_bind_ok hprepare]
    rcases extend_cases hempty t with ⟨ht, f, hextend⟩ | ⟨ht, fs₂, hextend, hnode, hsame'⟩
    · exact .inl ⟨ht, f, fs₁, hextend, hempty, hsame⟩
    · exact .inr ⟨ht, fs₂, hextend, hnode, trans_of (SameFilesBut _) hsame hsame'⟩

/-- To fail to write a text that has a UTF-8 form touches no file. -/
theorem sameFiles_of_failed_save {p : Path} {t : Text} (ht : t.isEncodable = true) {f : Failure} {fs fs' : FileTree}
    (h : perform (save p t) fs = (.error f, fs')) : SameFiles fs fs' := by
  rcases save_cases p t fs with ⟨g, fs₁, hsave, -, hsame⟩ | ⟨hnot, -⟩ | ⟨-, fs₁, hsave, -⟩
  · rw [h] at hsave
    cases hsave
    exact hsame
  · rw [ht] at hnot
    cases hnot
  · rw [h] at hsave
    cases hsave

/-- To write a file touches no other file. -/
theorem sameFilesBut_save (p : Path) (t : Text) : Leads (SameFilesBut (PlaceOf p)) (save p t) := by
  intro fs
  rcases save_cases p t fs with ⟨f, fs', hsave, -, hsame⟩ | ⟨-, f, fs', hsave, -, hsame⟩ | ⟨-, fs', hsave, -, hsame⟩
  all_goals rw [hsave]
  · exact hsame.of_same _
  · exact hsame
  · exact hsame

/-! ### Making directories -/

/-- A directory that was made is there. -/
theorem isDirectory_of_makeDirectory {p : Path} {fs fs' : FileTree}
    (h : perform (makeDirectory p) fs = (.ok ⟨⟩, fs')) : fs'.isDirectory p = true := by
  rw [makeDirectory, perform_bind_ok (perform_get fs)] at h
  rw [isDirectory_iff]
  cases hl : fs.locate p with
  | error e =>
    rw [hl] at h
    cases h
  | ok l =>
    rw [hl] at h
    rcases hn : fs.nodeAt? l with _ | t | _ <;> simp only [hn, perform_set, perform_throw, perform_pure] at h
    · have h0 : l ≠ [] := by
        rintro rfl
        rw [nodeAt?_nil] at hn
        cases hn
      cases h
      exact ⟨l, locate_of_keepsBut (keepsBut_put_new (fun _ => False) _ hn) hl, by rw [nodeAt?_put h0, if_pos rfl]⟩
    · cases h
    · cases h
      exact ⟨l, hl, hn⟩

theorem isDirectory_of_makeDirectories {levels : Nat} {p : Path} {fs fs' : FileTree}
    (h : perform (makeDirectories levels p) fs = (.ok ⟨⟩, fs')) : fs'.isDirectory p = true := by
  cases levels with
  | zero => exact isDirectory_of_makeDirectory h
  | succ levels =>
    rw [makeDirectories, perform_bind_ok (perform_get fs)] at h
    split at h
    · obtain ⟨⟨⟩, fs₁, -, h⟩ := perform_bind_eq_ok h
      exact isDirectory_of_makeDirectory h
    · exact isDirectory_of_makeDirectory h

/-- A directory that was made with those above it is there. -/
theorem isDirectory_of_makePath {p : Path} {fs fs' : FileTree} (h : perform (makePath p) fs = (.ok ⟨⟩, fs')) :
    fs'.isDirectory p = true := isDirectory_of_makeDirectories h

theorem not_isDirectory_of_makeDirectory {p : Path} {f : Failure} {fs fs' : FileTree}
    (h : perform (makeDirectory p) fs = (.error f, fs')) : fs'.isDirectory p = false := by
  rw [makeDirectory, perform_bind_ok (perform_get fs)] at h
  rw [Bool.eq_false_iff, Ne, isDirectory_iff]
  rintro ⟨l, hl, hd⟩
  cases hp : fs.locate p with
  | error e =>
    rw [hp] at h
    cases h
    rw [hp] at hl
    cases hl
  | ok l' =>
    rw [hp] at h
    rcases hn : fs.nodeAt? l' with _ | t | _ <;> simp only [hn, perform_set, perform_throw, perform_pure] at h
    · cases h
    · cases h
      rw [hp] at hl
      cases hl
      rw [hn] at hd
      cases hd
    · cases h

theorem not_isDirectory_of_makeDirectories {levels : Nat} {p : Path} {f : Failure} {fs fs' : FileTree}
    (h : perform (makeDirectories levels p) fs = (.error f, fs')) : fs'.isDirectory p = false := by
  induction levels generalizing p f fs' with
  | zero => exact not_isDirectory_of_makeDirectory h
  | succ levels ih =>
    rw [makeDirectories, perform_bind_ok (perform_get fs)] at h
    split at h
    · rw [perform_bind] at h
      rcases hparent : perform (makeDirectories levels p.parent) fs with ⟨g | ⟨⟩, fs₁⟩
      · rw [hparent] at h
        cases h
        exact Bool.eq_false_iff.2 fun hd => Bool.eq_false_iff.1 (ih hparent) (isDirectory_parent hd)
      · rw [hparent] at h
        exact not_isDirectory_of_makeDirectory h
    · exact not_isDirectory_of_makeDirectory h

/-- Where a directory could not be made there is none. -/
theorem not_isDirectory_of_makePath {p : Path} {f : Failure} {fs fs' : FileTree}
    (h : perform (makePath p) fs = (.error f, fs')) : fs'.isDirectory p = false := not_isDirectory_of_makeDirectories h

/-- A place is named by a name that leads to it. -/
theorem mem_of_site {names : List Text} {loc l : Location} {name : Text} (h : site loc names = some (l ++ [name])) :
    name ∈ names ∨ name ∈ loc := by
  induction names generalizing loc with
  | nil =>
    cases h
    exact .inr (List.mem_append_right l (List.mem_singleton_self name))
  | cons n names ih =>
    rw [site] at h
    split_ifs at h
    · exact (ih h).imp (List.mem_cons_of_mem n) fun hm => List.dropLast_subset _ hm
    · rcases ih h with hm | hm
      · exact .inl (List.mem_cons_of_mem n hm)
      · rcases List.mem_append.1 hm with hm | hm
        · exact .inr hm
        · rw [List.mem_singleton.1 hm]
          exact .inl List.mem_cons_self

/-- What has a name is the same in two trees. -/
def SameNamed (name : Text) (fs fs' : FileTree) : Prop := ∀ l, fs'.nodeAt? (l ++ [name]) = fs.nodeAt? (l ++ [name])

instance (name : Text) : IsPreorder FileTree (SameNamed name) where
  refl _ _ := rfl
  trans _ _ _ h h' l := (h' l).trans (h l)

theorem sameNamed_makeDirectory {p : Path} {name : Text} (h : name ∉ p.names) :
    Leads (SameNamed name) (makeDirectory p) := by
  apply Leads.get_bind
  intro fs
  cases hl : fs.locate p with
  | error e => exact refl_of (SameNamed name) fs
  | ok l =>
    rcases hn : fs.nodeAt? l with _ | t | _ <;> simp only [hn, perform_set, perform_throw, perform_pure]
    · intro l'
      have hne : l ≠ l' ++ [name] := by
        rintro rfl
        exact (mem_of_site (site_of_locate hl)).elim h List.not_mem_nil
      rw [nodeAt?_put (List.append_ne_nil_of_right_ne_nil l' (List.cons_ne_nil name [])), if_neg hne]
    · exact refl_of (SameNamed name) fs
    · exact refl_of (SameNamed name) fs

theorem sameNamed_makeDirectories {name : Text} (levels : Nat) {p : Path} (h : name ∉ p.names) :
    Leads (SameNamed name) (makeDirectories levels p) := by
  induction levels generalizing p with
  | zero => exact sameNamed_makeDirectory h
  | succ levels ih =>
    have hparent : name ∉ p.parent.names := fun hm => h (List.dropLast_subset _ hm)
    unfold makeDirectories
    apply Leads.get_bind
    intro fs
    split
    · exact Leads.bind (ih hparent) (fun _ => sameNamed_makeDirectory h) fs
    · exact sameNamed_makeDirectory h fs

/-- To make a directory makes only what is named on the way to it. -/
theorem sameNamed_makePath {p : Path} {name : Text} (h : name ∉ p.names) : Leads (SameNamed name) (makePath p) :=
  sameNamed_makeDirectories _ h

/-- **A file that could not be opened**: its directory is not there, or a directory has its name. -/
theorem prepare_error {p : Path} {name : Text} (hup : name ≠ Path.up) (hname : name ∉ p.names) {f : Failure}
    {fs fs' : FileTree} (h : perform (prepare (p.child name)) fs = (.error f, fs')) :
    fs'.isDirectory p = false ∨
      ∃ d, fs'.locate p = .ok d ∧ fs.nodeAt? (d ++ [name]) = some .directory := by
  have hparent : (p.child name).parent = p := by
    rw [Path.parent, Path.child, List.dropLast_concat]
  rw [prepare, hparent, perform_bind] at h
  have hsame := sameNamed_makePath hname fs
  rcases hdir : perform (makePath p) fs with ⟨g | ⟨⟩, fs₁⟩ <;> rw [hdir] at h hsame
  · cases h
    exact .inl (not_isDirectory_of_makePath hdir)
  · right
    obtain ⟨d, hd, hnode⟩ := isDirectory_iff.1 (isDirectory_of_makePath hdir)
    dsimp only at h
    rw [openFile, perform_bind_ok (perform_get fs₁), locate_child_of_directory hd hnode hup] at h
    rcases hn : fs₁.nodeAt? (d ++ [name]) with _ | t | _ <;> simp only [hn, perform_set, perform_throw] at h
    · cases h
    · cases h
    · cases h
      exact ⟨d, hd, (hsame d).symm.trans hn⟩

/-! ### Removing -/

theorem nodeAt?_remove (fs : FileTree) (loc : Location) {l : Location} (h0 : l ≠ []) :
    (fs.remove loc).nodeAt? l = if loc = l then none else fs.nodeAt? l := by
  by_cases hl : loc = l
  · rw [if_pos hl, nodeAt?, if_neg h0, remove, hl, Table.find?_erase_self]
  · rw [if_neg hl, nodeAt?, if_neg h0, remove, Table.find?_erase _ hl, nodeAt?, if_neg h0]

/-- What stands in a tree stood there before. -/
structure Pruned (fs fs' : FileTree) : Prop where
  /-- The working directory is the same. -/
  working : fs'.working = fs.working
  /-- What stands at a place is what stood there. -/
  node : ∀ l n, fs'.nodeAt? l = some n → fs.nodeAt? l = some n

instance : IsPreorder FileTree Pruned where
  refl _ := ⟨rfl, fun _ _ h => h⟩
  trans _ _ _ h h' := ⟨h'.working.trans h.working, fun l n hn => h.node l n (h'.node l n hn)⟩

theorem pruned_remove (fs : FileTree) (loc : Location) : Pruned fs (fs.remove loc) := by
  refine ⟨rfl, fun l n h => ?_⟩
  by_cases h0 : l = []
  · rw [h0, nodeAt?_nil] at h ⊢
    exact h
  · rw [nodeAt?_remove fs loc h0] at h
    split_ifs at h
    exact h

/-- To remove something touches no file elsewhere. -/
theorem sameFilesBut_remove (fs : FileTree) (loc : Location) : SameFilesBut (· = loc) fs (fs.remove loc) := by
  refine ⟨rfl, fun l t hne => ?_⟩
  by_cases h0 : l = []
  · rw [h0, nodeAt?_nil, nodeAt?_nil]
  · rw [nodeAt?_remove fs loc h0, if_neg (Ne.symm hne)]

/-- **What comes of removing a file**: it is gone, or there is no file at the path and nothing changes. -/
theorem unlink_cases (p : Path) (fs : FileTree) :
    (∃ l t, fs.locate p = .ok l ∧ fs.nodeAt? l = some (.file t) ∧ perform (unlink p) fs = (.ok ⟨⟩, fs.remove l)) ∨
      ((∀ t, fs.node? p ≠ some (.file t)) ∧ (perform (unlink p) fs).2 = fs) := by
  rw [unlink, perform_bind_ok (perform_get fs), node?]
  cases hl : fs.locate p with
  | error e =>
    refine .inr ⟨by simp, ?_⟩
    cases e <;> rfl
  | ok l =>
    rcases hn : fs.nodeAt? l with _ | t | _ <;> simp only [hn, perform_set, perform_throw, perform_pure]
    · exact .inr ⟨by simp, trivial⟩
    · exact .inl ⟨l, t, rfl, hn, rfl⟩
    · exact .inr ⟨by simp, trivial⟩

theorem pruned_unlink (p : Path) : Leads Pruned (unlink p) := by
  intro fs
  rcases unlink_cases p fs with ⟨l, t, -, -, h⟩ | ⟨-, h⟩
  · rw [h]
    exact pruned_remove fs l
  · rw [h]
    exact refl_of Pruned fs

/-- To remove a file touches no other file. -/
theorem sameFilesBut_unlink (p : Path) : Leads (SameFilesBut (PlaceOf p)) (unlink p) := by
  intro fs
  rcases unlink_cases p fs with ⟨l, t, hl, -, h⟩ | ⟨-, h⟩
  · rw [h]
    exact (sameFilesBut_remove fs l).mono fun l' hl' => hl' ▸ site_of_locate hl
  · rw [h]
    exact refl_of (SameFilesBut _) fs

/-- **What comes of removing a directory**: it is gone, or something stands in it or there is none, and nothing
changes. -/
theorem removeIfEmpty_cases (p : Path) (fs : FileTree) :
    (∃ d, fs.locate p = .ok d ∧ fs.nodeAt? d = some .directory ∧ fs.hasChildren d = false ∧
      perform (removeIfEmpty p) fs = (.ok ⟨⟩, fs.remove d)) ∨
    ((∀ d, fs.locate p = .ok d → fs.nodeAt? d = some .directory → fs.hasChildren d = true) ∧
      perform (removeIfEmpty p) fs = (.ok ⟨⟩, fs)) := by
  rw [removeIfEmpty, perform_bind_ok (perform_get fs)]
  cases hl : fs.locate p with
  | error e =>
    refine .inr ⟨fun d hd => ?_, rfl⟩
    cases hd
  | ok d =>
    by_cases h : fs.nodeAt? d = some .directory ∧ fs.hasChildren d = false
    · refine .inl ⟨d, rfl, h.1, h.2, ?_⟩
      simp only [h, and_self, if_true, perform_set]
    · refine .inr ⟨fun d' hd hn => ?_, ?_⟩
      · cases hd
        exact Bool.not_eq_false _ ▸ fun hc => h ⟨hn, hc⟩
      · simp only [h, if_false, perform_pure]

/-- To remove a directory touches no file. -/
theorem sameFiles_removeIfEmpty (p : Path) : Leads SameFiles (removeIfEmpty p) := by
  intro fs
  rcases removeIfEmpty_cases p fs with ⟨d, -, hd, -, h⟩ | ⟨-, h⟩
  · rw [h]
    refine ⟨rfl, fun l t _ => ?_⟩
    by_cases hl : l = d
    · rw [hl, hd]
      refine ⟨fun ht => ?_, by simp⟩
      rw [(pruned_remove fs d).node d _ ht] at hd
      cases hd
    · exact (sameFilesBut_remove fs d).file l t hl
  · rw [h]
    exact refl_of SameFiles fs

theorem pruned_removeIfEmpty (p : Path) : Leads Pruned (removeIfEmpty p) := by
  intro fs
  rcases removeIfEmpty_cases p fs with ⟨d, -, -, -, h⟩ | ⟨-, h⟩
  · rw [h]
    exact pruned_remove fs d
  · rw [h]
    exact refl_of Pruned fs

end FileTree

end EventPipeline
