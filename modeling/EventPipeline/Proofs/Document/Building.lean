import EventPipeline.Document.Basic
import EventPipeline.Proofs.Text.Blanks

/-!
# Building what a document describes

Once all lines of a document have been read, nothing can fail any more: the definition is not locked, a
line gives a connector a type name of word characters, none of which is blank, and the capacity of a line
is a natural number.
-/

namespace EventPipeline

namespace Document

theorem splitWord?_not_blank {t word rest : Text} (h : splitWord? t = some (word, rest)) : word.isBlank = false := by
  unfold splitWord? at h
  dsimp only at h
  split_ifs at h with hw
  cases h
  rw [Bool.eq_false_iff]
  intro hb
  obtain ⟨s, word, hs⟩ := List.exists_cons_of_ne_nil hw
  have hword : s.isWord = true := List.all_eq_true.1 List.all_takeWhile s (hs ▸ List.mem_cons_self)
  rw [Text.isBlank, hs, List.all_cons, Bool.and_eq_true] at hb
  rw [Symbol.isWord_of_isBlank hb.1] at hword
  cases hword

/-- The type of a connector is not blank. -/
theorem readConnector_type {role : Role} {arguments : Text} {c : Descriptor}
    (h : readConnector role arguments = .ok c) : c.type.isBlank = false := by
  unfold readConnector at h
  split at h
  · cases h
  · rename_i type rest hsplit
    have htype := splitWord?_not_blank hsplit
    split at h
    · cases h
    · simp only at h
      split at h
      · split at h
        · cases h
        · cases h
          exact htype
        · cases h
      · split at h
        · cases h
        · cases h
          exact htype

/-! ### Lines that are understood -/

/-- A line that is understood holds the body of a stage, or a word with the arguments of a connector or of the
capacity. -/
theorem readLine_ok {line : Text} {c : Command} (h : readLine line = .ok c) :
    (∃ word body e, stageBody? line = some (word, body) ∧ Expression.compile body = .ok e ∧ c = .stage word e) ∨
      ∃ arguments, wordAndArguments? line = some (c.word, arguments) ∧
        ((∃ role d, readConnector role arguments = .ok d ∧ c = .connect role d) ∨
          c = .bufferSize (digitsValue arguments)) := by
  have hmap : ∀ {role arguments}, (readConnector role arguments).map (Command.connect role) = .ok c →
      ∃ d, readConnector role arguments = .ok d ∧ c = .connect role d := by
    intro role arguments hr
    cases hd : readConnector role arguments with
    | error f =>
      rw [hd] at hr
      cases hr
    | ok d =>
      rw [hd] at hr
      cases hr
      exact ⟨d, rfl, rfl⟩
  unfold readLine at h
  split at h
  · rename_i word body hstage
    split at h
    · rename_i e he
      cases h
      exact .inl ⟨word, body, e, hstage, he, rfl⟩
    · cases h
  · split at h
    · cases h
    · rename_i word arguments hargs
      split_ifs at h with hfilter htransform hsource hsink hsize hdigits
      · obtain ⟨d, hd, rfl⟩ := hmap h
        exact .inr ⟨arguments, by rw [hargs, hsource]; rfl, .inl ⟨_, d, hd, rfl⟩⟩
      · obtain ⟨d, hd, rfl⟩ := hmap h
        exact .inr ⟨arguments, by rw [hargs, hsink]; rfl, .inl ⟨_, d, hd, rfl⟩⟩
      · cases h
        exact .inr ⟨arguments, by rw [hargs, hsize]; rfl, .inr rfl⟩

theorem readLine_connect {line : Text} {role : Role} {c : Descriptor} (h : readLine line = .ok (.connect role c)) :
    c.type.isBlank = false := by
  rcases readLine_ok h with ⟨word, body, e, -, -, hc⟩ | ⟨arguments, -, ⟨role', d, hd, hc⟩ | hc⟩
  · cases hc
  · cases hc
    exact readConnector_type hd
  · cases hc

/-! ### Carrying out directives -/

/-- The definition after a command. -/
def Command.carriedOut (now : Int) (p : Definition) : Command → Definition
  | .connect .source c => { p with source := some c }
  | .connect .sink c => { p with sink := some c }
  | .stage .filter e => { p with stages := p.stages ++ [.filterBy e now e.source] }
  | .stage .transform e => { p with stages := p.stages ++ [.transformBy e now e.source] }
  | .bufferSize n => { p with capacity := n }

/-- The definition that commands make of one without any part, at the capacity that settings name. -/
def build (now : Int) (settings : Option Settings) (cs : List Command) : Definition :=
  cs.foldl (Command.carriedOut now) (Definition.ofSettings settings)

@[simp] theorem Command.locked_carriedOut (now : Int) (p : Definition) (c : Command) :
    (c.carriedOut now p).locked = p.locked := by
  cases c with
  | connect role _ => cases role <;> rfl
  | stage word _ => cases word <;> rfl
  | bufferSize _ => rfl

/-- A directive whose line was read is carried out on a definition that is not locked. -/
theorem apply_eq (now : Int) {d : Directive} (hd : readLine d.line = .ok d.command) {p : Definition}
    (hp : p.locked = false) : d.apply now p = .ok (d.command.carriedOut now p) := by
  have hmutable : p.ensureMutable = .ok () := by rw [Definition.ensureMutable, hp, if_neg Bool.false_ne_true]
  unfold Directive.apply
  cases hc : d.command with
  | connect role c =>
    rw [hc] at hd
    have htype : Descriptor.ofValues (.text c.type) c.config = .ok ⟨c.type, c.config⟩ := by
      rw [Descriptor.ofValues, if_neg (by simp [readLine_connect hd])]
    simp only [Definition.connect, hmutable, htype, bind, Except.bind]
    cases role <;> rfl
  | stage word e =>
    simp only [Definition.addStage, hmutable, bind, Except.bind]
    cases word <;> rfl
  | bufferSize n =>
    have hn : Definition.capacityOf (.nat n) = .ok n := rfl
    simp only [Definition.bufferSize, hmutable, hn, bind, Except.bind]
    rfl

/-- All directives are carried out, one after the other. -/
theorem foldlM_apply (now : Int) {ds : List Directive} (hds : ∀ d ∈ ds, readLine d.line = .ok d.command)
    {p : Definition} (hp : p.locked = false) :
    ds.foldlM (Directive.apply now) p = .ok ((ds.map Directive.command).foldl (Command.carriedOut now) p) := by
  induction ds generalizing p with
  | nil => rfl
  | cons d ds ih =>
    rw [List.foldlM_cons, apply_eq now (hds d List.mem_cons_self) hp]
    exact ih (fun d' hd' => hds d' (List.mem_cons_of_mem _ hd')) (by simp [hp])

end Document

end EventPipeline
