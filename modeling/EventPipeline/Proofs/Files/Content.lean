import EventPipeline.Proofs.Files.Frame

/-!
# The content of a file

What the file at a path holds, told by the place of the path (`FileTree.contentAt`). The place is the same
whether or not the directories on the way to it exist, so that making them changes the content of no file
(`keepsContent_makePath`); and opening a file either fails and changes nothing or changes the content of the
file as it was asked to (`openFile_cases`).
-/

namespace EventPipeline

namespace FileTree

/-- The content of the file at the place of a path, empty if there is none. -/
def contentAt (fs : FileTree) (p : Path) : Text :=
  match (site [] p.names).bind fs.nodeAt? with
  | some (.file t) => t
  | _ => []

/-- Nothing stands at the place of a path. -/
def IsMissing (fs : FileTree) (p : Path) : Prop := ∀ l, PlaceOf p l → fs.nodeAt? l = none

theorem contentAt_of_isMissing {fs : FileTree} {p : Path} (h : fs.IsMissing p) : fs.contentAt p = [] := by
  unfold contentAt
  cases hl : site [] p.names with
  | none => rfl
  | some l => simp [h l hl]

theorem contentAt_of_node? {fs : FileTree} {p : Path} {t : Text} (h : fs.node? p = some (.file t)) :
    fs.contentAt p = t := by
  obtain ⟨l, hl, hn⟩ := node?_eq_some_iff.1 h
  simp [contentAt, site_of_locate hl, hn]

/-- A path that leads to its place shows the content of the file there. -/
theorem textAt_of_locate {fs : FileTree} {p : Path} {l : Location} (h : fs.locate p = .ok l) :
    fs.textAt p = fs.contentAt p := by
  have hnode : (site [] p.names).bind fs.nodeAt? = fs.node? p := by
    rw [site_of_locate h]
    simp [node?, h]
  rw [contentAt, hnode]
  rfl

/-! ### Making directories -/

/-- No file has changed its content, and those that could be found still are. -/
structure KeepsContent (fs fs' : FileTree) : Prop where
  /-- What the file at a place holds is the same. -/
  content : ∀ p, fs'.contentAt p = fs.contentAt p
  /-- Files are found. -/
  found : ∀ p t, fs.node? p = some (.file t) → fs'.node? p = some (.file t)

instance : IsPreorder FileTree KeepsContent where
  refl _ := ⟨fun _ => rfl, fun _ _ h => h⟩
  trans _ _ _ h h' := ⟨fun p => (h'.content p).trans (h.content p), fun p t ht => h'.found p t (h.found p t ht)⟩

/-- A new directory changes the content of no file. -/
theorem keepsContent_put_directory (fs : FileTree) (loc : Location) (h : fs.nodeAt? loc = none) :
    KeepsContent fs (fs.put loc .directory) := by
  constructor
  · intro p
    unfold contentAt
    cases hl : site [] p.names with
    | none => rfl
    | some l =>
      by_cases h0 : l = []
      · simp [h0, nodeAt?_nil]
      · by_cases hloc : loc = l
        · subst hloc
          simp [nodeAt?_put h0, h]
        · simp [nodeAt?_put h0, hloc]
  · intro p t ht
    exact node?_of_keepsBut (S := fun _ => False) (keepsBut_put_new _ _ h) (fun _ _ hS => hS) ht

theorem keepsContent_makePath (p : Path) : Leads KeepsContent (makePath p) :=
  leads_makeDirectories keepsContent_put_directory _ p

/-! ### Opening files -/

/-- Opening a file fails and changes nothing, or the file is there and holds what it was opened with. -/
theorem openFile_cases (p : Path) (start : Text → Text) (fs : FileTree) :
    (∃ f, perform (openFile p start) fs = (.error f, fs)) ∨
      ∃ fs', perform (openFile p start) fs = (.ok ⟨⟩, fs') ∧ fs'.node? p = some (.file (start (fs.contentAt p))) := by
  have hfound : ∀ fs', perform (openFile p start) fs = (.ok ⟨⟩, fs') → fs'.node? p = some (.file (start (fs.textAt p))) :=
    fun _ => node?_of_openFile
  rw [openFile, perform_bind_ok (perform_get fs)] at hfound ⊢
  cases hl : fs.locate p with
  | error e => exact .inl ⟨e.toFailure p, rfl⟩
  | ok l =>
    rw [← textAt_of_locate hl]
    rcases hn : fs.nodeAt? l with _ | t | _ <;> simp only [hl, hn, perform_set] at hfound ⊢
    · exact .inr ⟨_, rfl, hfound _ rfl⟩
    · exact .inr ⟨_, rfl, hfound _ rfl⟩
    · exact .inl ⟨_, rfl⟩

/-- The same with the directories on the way made first, which may have been done also if it fails. -/
theorem makePath_openFile_cases (dir p : Path) (start : Text → Text) (fs : FileTree) :
    (∃ f fs', perform (makePath dir >>= fun _ => openFile p start) fs = (.error f, fs') ∧ KeepsContent fs fs') ∨
      ∃ fs', perform (makePath dir >>= fun _ => openFile p start) fs = (.ok ⟨⟩, fs') ∧
        fs'.node? p = some (.file (start (fs.contentAt p))) := by
  have hkept := keepsContent_makePath dir fs
  rw [perform_bind]
  rcases hdir : perform (makePath dir) fs with ⟨f | _, fs₁⟩ <;> rw [hdir] at hkept
  · exact .inl ⟨f, fs₁, rfl, hkept⟩
  · rw [← hkept.content p]
    rcases openFile_cases p start fs₁ with ⟨f, h⟩ | ⟨fs₂, h, hnode⟩
    · exact .inl ⟨f, fs₁, h, hkept⟩
    · exact .inr ⟨fs₂, h, hnode⟩

end FileTree

end EventPipeline
