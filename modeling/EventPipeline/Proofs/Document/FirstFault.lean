import EventPipeline.Proofs.Document.Building
import Mathlib.Data.List.Basic
import Mathlib.Data.Nat.Basic

/-!
# The first fault of a document

A document is read line by line, and the first line at fault decides. Lines are numbered from one on, and
those that say nothing are left out (`said`). A line is at *fault* if it is rejected on its own, or if it
names an end that an earlier line names. The failure of a document is that of the least faulty line, with
its number and its text, and it stays the same whatever lines follow. A document without faulty lines is
understood line by line, and then its definition can be built: the building adds no failure of its own.
-/

namespace EventPipeline

namespace Document

/-! ### Lines and faults -/

/-- A line with its number and without whitespace around it, if it says anything. -/
def numbered? (entry : Text × Nat) : Option (Nat × Text) := (meaningful? entry.1).map (entry.2, ·)

/-- The lines of a document that say something, with their numbers. -/
def said (t : Text) : List (Nat × Text) := (t.documentLines.zipIdx 1).filterMap numbered?

/-- The line with a number is understood and names an end. -/
def Names (ls : List (Nat × Text)) (role : Role) (number : Nat) : Prop :=
  ∃ line command, (number, line) ∈ ls ∧ readLine line = .ok command ∧ command.role? = some role

/-- An end has been named on a line: outside the list, or in it on a line before the given one. -/
def NamedBefore (seen : Table Role Nat) (ls : List (Nat × Text)) (role : Role) (number first : Nat) : Prop :=
  seen.find? role = some first ∨ first < number ∧ Names ls role first

/-- What is wrong with a line, given the lines outside the list on which ends have been named. -/
inductive FaultAt (seen : Table Role Nat) (ls : List (Nat × Text)) (number : Nat) (line : Text) : Fault → Prop
  /-- The line is rejected on its own. -/
  | rejected {fault : Fault} (hm : (number, line) ∈ ls) (h : readLine line = .error fault) :
    FaultAt seen ls number line fault
  /-- The line names an end that an earlier line names. -/
  | repeated {command : Command} {role : Role} {first : Nat} (hm : (number, line) ∈ ls)
    (h : readLine line = .ok command) (hr : command.role? = some role)
    (hb : NamedBefore seen ls role number first) : FaultAt seen ls number line (.duplicate role first)

/-- The line of a document with a number is at fault. -/
def Faulty (t : Text) (number : Nat) : Prop := ∃ line fault, FaultAt [] (said t) number line fault

/-- The failure is that of the first faulty line of the document. -/
structure FirstFault (t : Text) (f : Failure) : Prop where
  /-- It is made of a fault of the least faulty line. -/
  blamed : ∃ number line fault, FaultAt [] (said t) number line fault ∧ (∀ n, Faulty t n → number ≤ n) ∧
    f = fault.toFailure number line ∧
    -- a failure of the document, not of something below it, carries the number and the line
    ∀ n l message details hint cause, f = .structured (.document n l) message details hint cause →
      n = some number ∧ l = some line
  /-- It does not depend on the lines that follow. -/
  lasting : ∀ s, directives (t ++ .char '\n' :: s) = .error f

/-- The directives are those of the lines of the document, one by one. -/
structure Understood (t : Text) (ds : List Directive) : Prop where
  /-- There is one directive for each line that says something, in order. -/
  lines : ds.map (fun d => (d.number, d.line)) = said t
  /-- The numbers go up. -/
  numbers : ds.Pairwise fun d d' => d.number < d'.number
  /-- A directive asks for what its line says on its own. -/
  commands : ∀ d ∈ ds, readLine d.line = .ok d.command
  /-- Each end is named once at most. -/
  ends : ∀ role : Role, (ds.filter fun d => d.command.role? = some role).length ≤ 1
  /-- No line is at fault. -/
  clean : ∀ number, ¬ Faulty t number

/-! ### The lines as a list of their own -/

/-- The directives of numbered lines. -/
def readSaid (seen : Table Role Nat) : List (Nat × Text) → Except Failure (List Directive)
  | [] => .ok []
  | (number, line) :: rest => do
    let d ← readDirective seen number line
    let ds ← readSaid (d.mark seen) rest
    return d :: ds

theorem readLines_eq (seen : Table Role Nat) (raws : List Text) (number : Nat) :
    readLines seen number raws = readSaid seen ((raws.zipIdx number).filterMap numbered?) := by
  induction raws generalizing seen number with
  | nil => rfl
  | cons raw rest ih =>
    rw [List.zipIdx_cons, List.filterMap_cons, readLines, numbered?]
    cases hm : meaningful? raw with
    | none => exact ih seen (number + 1)
    | some line =>
      refine congrArg (readDirective seen number line >>= ·) (funext fun d => ?_)
      rw [ih]

theorem directives_eq (t : Text) : directives t = readSaid [] (said t) := readLines_eq [] t.documentLines 1

/-- The numbers of the lines go up. -/
theorem said_pairwise (t : Text) : (said t).Pairwise fun a b => a.1 < b.1 := by
  have h : (t.documentLines.zipIdx 1).Pairwise fun a b => a.2 < b.2 := by
    have hr := List.pairwise_lt_range' (s := 1) (n := t.documentLines.length)
    rw [← List.zipIdx_map_snd 1 t.documentLines] at hr
    exact List.pairwise_map.1 hr
  refine List.Pairwise.filterMap _ (fun a b hab a' ha' b' hb' => ?_) h
  obtain ⟨line, -, rfl⟩ := Option.map_eq_some_iff.1 ha'
  obtain ⟨line', -, rfl⟩ := Option.map_eq_some_iff.1 hb'
  exact hab

/-! ### One line -/

variable {seen : Table Role Nat} {number : Nat} {line : Text}

theorem readDirective_error {f : Failure} (h : readDirective seen number line = .error f) :
    ∃ fault : Fault, f = fault.toFailure number line ∧ (readLine line = .error fault ∨
      ∃ command role first, readLine line = .ok command ∧ command.role? = some role ∧
        seen.find? role = some first ∧ fault = .duplicate role first) := by
  unfold readDirective at h
  cases hl : readLine line with
  | error fault =>
    rw [hl] at h
    cases h
    exact ⟨fault, rfl, .inl rfl⟩
  | ok command =>
    rw [hl] at h
    simp only at h
    cases hr : command.role? with
    | none =>
      rw [hr] at h
      cases h
    | some role =>
      rw [hr] at h
      cases hf : seen.find? role with
      | none =>
        simp only [Option.bind_some, hf, Option.map_none] at h
        cases h
      | some first =>
        simp only [Option.bind_some, hf, Option.map_some] at h
        cases h
        exact ⟨_, rfl, .inr ⟨command, role, first, rfl, hr, hf, rfl⟩⟩

theorem readDirective_ok {d : Directive} (h : readDirective seen number line = .ok d) :
    ∃ command, readLine line = .ok command ∧ d = ⟨number, line, command⟩ ∧
      ∀ role, command.role? = some role → seen.find? role = none := by
  unfold readDirective at h
  cases hl : readLine line with
  | error fault =>
    rw [hl] at h
    cases h
  | ok command =>
    rw [hl] at h
    simp only at h
    cases hr : command.role? with
    | none =>
      rw [hr] at h
      cases h
      exact ⟨command, rfl, rfl, fun role hrole => by cases hr.symm.trans hrole⟩
    | some role =>
      rw [hr] at h
      cases hf : seen.find? role with
      | some first =>
        simp only [Option.bind_some, hf, Option.map_some] at h
        cases h
      | none =>
        simp only [Option.bind_some, hf, Option.map_none] at h
        cases h
        refine ⟨command, rfl, rfl, fun role' hrole => ?_⟩
        rw [hr] at hrole
        cases hrole
        exact hf

/-- What a line that was understood adds to the ends that have been named. -/
theorem find?_mark (d : Directive) (seen : Table Role Nat) (role : Role) :
    (d.mark seen).find? role = if d.command.role? = some role then some d.number else seen.find? role := by
  unfold Directive.mark
  cases hr : d.command.role? with
  | none => simp
  | some role' => simp [Table.find?_set]

section

variable {rest : List (Nat × Text)} {d : Directive} (hlater : ∀ entry ∈ rest, number < entry.1)
  (hd : readDirective seen number line = .ok d)

include hlater

theorem le_of_mem {n : Nat} {line' : Text} (h : (n, line') ∈ (number, line) :: rest) : number ≤ n := by
  rcases List.mem_cons.1 h with h | h
  · exact Nat.le_of_eq (Prod.mk.inj h).1.symm
  · exact Nat.le_of_lt (hlater _ h)

include hd

omit hlater in
/-- An end is named before a later line just if it is once the first line has been marked. -/
theorem namedBefore_cons {role : Role} {n first : Nat} (hn : number < n) :
    NamedBefore seen ((number, line) :: rest) role n first ↔ NamedBefore (d.mark seen) rest role n first := by
  obtain ⟨command, hc, rfl, hfree⟩ := readDirective_ok hd
  unfold NamedBefore
  rw [find?_mark]
  by_cases hr : command.role? = some role
  · rw [if_pos hr, hfree role hr]
    constructor
    · rintro (h | ⟨hlt, line', command', hm, hc', hr'⟩)
      · cases h
      · rcases List.mem_cons.1 hm with hm | hm
        · cases hm
          exact .inl rfl
        · exact .inr ⟨hlt, line', command', hm, hc', hr'⟩
    · rintro (h | ⟨hlt, line', command', hm, hc', hr'⟩)
      · cases h
        exact .inr ⟨hn, line, command, List.mem_cons_self, hc, hr⟩
      · exact .inr ⟨hlt, line', command', List.mem_cons_of_mem _ hm, hc', hr'⟩
  · rw [if_neg hr]
    refine or_congr_right (and_congr_right fun _ => ?_)
    constructor
    · rintro ⟨line', command', hm, hc', hr'⟩
      rcases List.mem_cons.1 hm with hm | hm
      · cases hm
        rw [hc] at hc'
        cases hc'
        exact absurd hr' hr
      · exact ⟨line', command', hm, hc', hr'⟩
    · rintro ⟨line', command', hm, hc', hr'⟩
      exact ⟨line', command', List.mem_cons_of_mem _ hm, hc', hr'⟩

/-- A line that was understood is not at fault, and the faults of the others are theirs once it has
been marked. -/
theorem faultAt_cons {n : Nat} {line' : Text} {fault : Fault} :
    FaultAt seen ((number, line) :: rest) n line' fault ↔ FaultAt (d.mark seen) rest n line' fault := by
  obtain ⟨command, hc, hdc, hfree⟩ := readDirective_ok hd
  constructor
  · rintro (⟨hm, h⟩ | ⟨hm, h, hr, hb⟩)
    · rcases List.mem_cons.1 hm with hm | hm
      · cases hm
        rw [hc] at h
        cases h
      · exact .rejected hm h
    · rcases List.mem_cons.1 hm with hm | hm
      · cases hm
        rw [hc] at h
        cases h
        rcases hb with hb | ⟨hlt, _, _, hm', -⟩
        · rw [hfree _ hr] at hb
          cases hb
        · exact absurd hlt (not_lt.2 (le_of_mem hlater hm'))
      · exact .repeated hm h hr ((namedBefore_cons hd (hlater _ hm)).1 hb)
  · rintro (⟨hm, h⟩ | ⟨hm, h, hr, hb⟩)
    · exact .rejected (List.mem_cons_of_mem _ hm) h
    · exact .repeated (List.mem_cons_of_mem _ hm) h hr ((namedBefore_cons hd (hlater _ hm)).2 hb)

end

/-! ### All lines -/

theorem readSaid_cons_error {rest : List (Nat × Text)} {f : Failure} :
    readSaid seen ((number, line) :: rest) = .error f ↔ readDirective seen number line = .error f ∨
      ∃ d, readDirective seen number line = .ok d ∧ readSaid (d.mark seen) rest = .error f := by
  rw [readSaid]
  cases hd : readDirective seen number line with
  | error f' => simp [bind, Except.bind]
  | ok d => cases hds : readSaid (d.mark seen) rest <;> simp [bind, Except.bind, pure, Except.pure, hds]

theorem readSaid_cons_ok {rest : List (Nat × Text)} {ds : List Directive}
    (h : readSaid seen ((number, line) :: rest) = .ok ds) :
    ∃ d ds', readDirective seen number line = .ok d ∧ readSaid (d.mark seen) rest = .ok ds' ∧ ds = d :: ds' := by
  rw [readSaid] at h
  cases hd : readDirective seen number line with
  | error f =>
    rw [hd] at h
    cases h
  | ok d =>
    rw [hd] at h
    cases hds : readSaid (d.mark seen) rest with
    | error f =>
      simp only [bind, Except.bind, hds] at h
      cases h
    | ok ds' =>
      simp only [bind, Except.bind, hds] at h
      cases h
      exact ⟨d, ds', rfl, hds, rfl⟩

/-- The first line that is not understood decides. -/
theorem readSaid_error {ls : List (Nat × Text)} (hls : ls.Pairwise fun a b => a.1 < b.1) {seen : Table Role Nat}
    {f : Failure} (h : readSaid seen ls = .error f) :
    ∃ number line fault, FaultAt seen ls number line fault ∧ f = fault.toFailure number line ∧
      ∀ n line' fault', FaultAt seen ls n line' fault' → number ≤ n := by
  induction ls generalizing seen with
  | nil => cases h
  | cons entry rest ih =>
    obtain ⟨number, line⟩ := entry
    obtain ⟨hlater, hrest⟩ := List.pairwise_cons.1 hls
    rcases readSaid_cons_error.1 h with hd | ⟨d, hd, hds⟩
    · obtain ⟨fault, hf, hwhy⟩ := readDirective_error hd
      refine ⟨number, line, fault, ?_, hf, fun n line' fault' hn => ?_⟩
      · rcases hwhy with hwhy | ⟨command, role, first, hc, hr, hfirst, rfl⟩
        · exact .rejected List.mem_cons_self hwhy
        · exact .repeated List.mem_cons_self hc hr (.inl hfirst)
      · cases hn with
        | rejected hm => exact le_of_mem hlater hm
        | repeated hm => exact le_of_mem hlater hm
    · obtain ⟨n, line', fault, hfault, hf, hleast⟩ := ih hrest hds
      refine ⟨n, line', fault, (faultAt_cons hlater hd).2 hfault, hf, fun m line'' fault' hm => ?_⟩
      exact hleast m line'' fault' ((faultAt_cons hlater hd).1 hm)

/-- What the directives of a list of lines are. -/
structure Read (seen : Table Role Nat) (ls : List (Nat × Text)) (ds : List Directive) : Prop where
  /-- There is one directive for each line. -/
  lines : ds.map (fun d => (d.number, d.line)) = ls
  /-- A directive asks for what its line says. -/
  commands : ∀ d ∈ ds, readLine d.line = .ok d.command
  /-- An end is named once at most, and not at all if it was named before. -/
  ends : ∀ role : Role, (ds.filter fun d => d.command.role? = some role).length ≤
    if (seen.find? role).isSome then 0 else 1
  /-- No line is at fault. -/
  clean : ∀ n line fault, ¬ FaultAt seen ls n line fault

theorem readSaid_ok {ls : List (Nat × Text)} (hls : ls.Pairwise fun a b => a.1 < b.1) {seen : Table Role Nat}
    {ds : List Directive} (h : readSaid seen ls = .ok ds) : Read seen ls ds := by
  induction ls generalizing seen ds with
  | nil =>
    cases h
    refine ⟨rfl, List.forall_mem_nil _, fun role => Nat.zero_le _, fun n line fault hf => ?_⟩
    cases hf with
    | rejected hm => cases hm
    | repeated hm => cases hm
  | cons entry rest ih =>
    obtain ⟨number, line⟩ := entry
    obtain ⟨hlater, hrest⟩ := List.pairwise_cons.1 hls
    obtain ⟨d, ds', hd, hds, rfl⟩ := readSaid_cons_ok h
    have hread := ih hrest hds
    obtain ⟨command, hc, rfl, hfree⟩ := readDirective_ok hd
    refine ⟨?_, ?_, fun role => ?_, fun n line' fault hf => ?_⟩
    · rw [List.map_cons, hread.lines]
    · intro d' hd'
      rcases List.mem_cons.1 hd' with rfl | hd'
      · exact hc
      · exact hread.commands d' hd'
    · have hends := hread.ends role
      rw [find?_mark] at hends
      rw [List.filter_cons]
      by_cases hr : command.role? = some role
      · simp only [hr, if_true, Option.isSome_some, decide_true, List.length_cons] at hends ⊢
        simp only [hfree role hr, Option.isSome_none, Bool.false_eq_true, if_false]
        omega
      · simpa only [hr, if_false, decide_false, Bool.false_eq_true] using hends
    · exact hread.clean n line' fault ((faultAt_cons hlater hd).1 hf)

/-- A failure does not depend on the lines that follow. -/
theorem readSaid_append {ls : List (Nat × Text)} {seen : Table Role Nat} {f : Failure}
    (h : readSaid seen ls = .error f) (more : List (Nat × Text)) : readSaid seen (ls ++ more) = .error f := by
  induction ls generalizing seen with
  | nil => cases h
  | cons entry rest ih =>
    obtain ⟨number, line⟩ := entry
    rw [List.cons_append]
    rcases readSaid_cons_error.1 h with hd | ⟨d, hd, hds⟩
    · exact readSaid_cons_error.2 (.inl hd)
    · exact readSaid_cons_error.2 (.inr ⟨d, hd, ih hds⟩)

/-! ### Lines that are added at the end -/

theorem documentLines_ne_nil (c : Symbol) (t : Text) : Text.documentLines (c :: t) ≠ [] := by
  intro h
  unfold Text.documentLines at h
  split at h
  · contradiction
  · contradiction
  · split_ifs at h
    split at h <;> contradiction

/-- A symbol that ends no line belongs to the first line of what follows. -/
theorem documentLines_cons {c : Symbol} (hc : ¬ c.endsLine = true) (t : Text) :
    Text.documentLines (c :: t) = (c :: (Text.documentLines t).headD []) :: (Text.documentLines t).tail := by
  have hcr : c ≠ .char '\r' := by
    rintro rfl
    exact hc rfl
  cases t with
  | nil => simp [Text.documentLines, hc]
  | cons head tail =>
    obtain ⟨line, lines, h⟩ := List.exists_cons_of_ne_nil (documentLines_ne_nil head tail)
    rw [Text.documentLines.eq_3 c head tail line lines (fun _ hr => absurd hr hcr) h, if_neg hc, h]
    rfl

/-- A symbol that ends a line on its own leaves an empty line before what follows. -/
theorem documentLines_end {c : Symbol} (hc : c.endsLine = true) {t : Text}
    (hpair : ∀ u, c = .char '\r' → t ≠ .char '\n' :: u) :
    Text.documentLines (c :: t) = [] :: Text.documentLines t := by
  cases t with
  | nil => simp [Text.documentLines, hc]
  | cons head tail =>
    obtain ⟨line, lines, h⟩ := List.exists_cons_of_ne_nil (documentLines_ne_nil head tail)
    rw [Text.documentLines.eq_3 c head tail line lines (fun u hr hu => hpair u hr hu) h, if_pos hc]

/-- What follows a line feed adds lines at the end. -/
theorem documentLines_append (t s : Text) :
    ∃ more, Text.documentLines (t ++ .char '\n' :: s) = Text.documentLines t ++ more := by
  have goes : ∀ c t, ¬ Symbol.endsLine c = true →
      (∃ more, Text.documentLines (t ++ .char '\n' :: s) = Text.documentLines t ++ more) →
      ∃ more, Text.documentLines (c :: t ++ .char '\n' :: s) = Text.documentLines (c :: t) ++ more := by
    rintro c t hc ⟨more, h⟩
    rw [List.cons_append, documentLines_cons hc, documentLines_cons hc]
    cases t with
    | nil => exact ⟨Text.documentLines s, rfl⟩
    | cons head tail =>
      obtain ⟨line, lines, hl⟩ := List.exists_cons_of_ne_nil (documentLines_ne_nil head tail)
      rw [h, hl]
      exact ⟨more, rfl⟩
  induction t using Text.documentLines.induct with
  | case1 => exact ⟨_, rfl⟩
  | case2 t ih =>
    obtain ⟨more, h⟩ := ih
    exact ⟨more, by rw [List.cons_append, List.cons_append, Text.documentLines, h, Text.documentLines]; rfl⟩
  | case3 c t hpair hc ih =>
    obtain ⟨more, h⟩ := ih
    by_cases hcr : c = .char '\r' ∧ t = []
    · obtain ⟨rfl, rfl⟩ := hcr
      exact ⟨Text.documentLines s, rfl⟩
    · refine ⟨more, ?_⟩
      have hpair' : ∀ u, c = .char '\r' → t ++ .char '\n' :: s ≠ .char '\n' :: u := by
        intro u hr hu
        cases t with
        | nil => exact hcr ⟨hr, rfl⟩
        | cons head tail => exact hpair tail hr (by rw [(List.cons.inj hu).1])
      rw [List.cons_append, documentLines_end hc hpair', h, documentLines_end hc fun u hr hu => hpair u hr hu]
      rfl
  | case4 c hc head tail line lines hpair hl ih => exact goes c _ hc ih
  | case5 c t hpair hc hl ih => exact goes c t hc ih

/-- What follows a line feed adds to the lines that say something, at the end. -/
theorem said_append (t s : Text) : ∃ more, said (t ++ .char '\n' :: s) = said t ++ more := by
  obtain ⟨more, h⟩ := documentLines_append t s
  exact ⟨_, by rw [said, h, List.zipIdx_append, List.filterMap_append]; rfl⟩

/-! ### The document as a whole -/

/-- A failure of the document that a fault becomes has the number and the text of the line. -/
theorem toFailure_document {fault : Fault} {number : Nat} {line : Text} {n : Option Int} {l : Option Text}
    {message : Text} {details : Fields} {hint : Option Text} {cause : Option Cause}
    (h : fault.toFailure number line = .structured (.document n l) message details hint cause) :
    n = some (number : Int) ∧ l = some line := by
  cases fault with
  | expression word body e =>
    simp only [Fault.toFailure] at h
    split at h
    · cases h
      exact ⟨rfl, rfl⟩
    · cases e with
      | notText v => cases h
      | tooHigh => cases h
      | lexical e => cases e <;> cases h
      | grammatical e => cases e <;> cases h
  | _ =>
    cases h
    exact ⟨rfl, rfl⟩

theorem firstFault {t : Text} {f : Failure} (h : directives t = .error f) : FirstFault t f := by
  rw [directives_eq] at h
  constructor
  · obtain ⟨number, line, fault, hfault, hf, hleast⟩ := readSaid_error (said_pairwise t) h
    refine ⟨number, line, fault, hfault, ?_, hf, fun n l message details hint cause hdoc => ?_⟩
    · rintro n ⟨line', fault', hn⟩
      exact hleast n line' fault' hn
    · exact toFailure_document (hf.symm.trans hdoc)
  · intro s
    obtain ⟨more, hmore⟩ := said_append t s
    rw [directives_eq, hmore]
    exact readSaid_append h more

theorem understood {t : Text} {ds : List Directive} (h : directives t = .ok ds) : Understood t ds := by
  rw [directives_eq] at h
  have hread := readSaid_ok (said_pairwise t) h
  refine ⟨hread.lines, ?_, hread.commands, hread.ends, ?_⟩
  · have hls := said_pairwise t
    rw [← hread.lines] at hls
    have hnumbers := List.pairwise_map.1 hls
    exact hnumbers
  · rintro number ⟨line, fault, hfault⟩
    exact hread.clean number line fault hfault

/-- Building a definition adds no failure: a document compiles just if its lines can be read. -/
theorem compile_error_iff {t : Text} {now : Int} {settings : Option Settings} {f : Failure} :
    compile now settings t = .error f ↔ directives t = .error f := by
  unfold compile
  cases h : directives t with
  | error f' =>
    constructor
    · intro hf
      cases hf
      rfl
    · intro hf
      cases hf
      rfl
  | ok ds =>
    have hbuilt := foldlM_apply now (understood h).commands (p := Definition.ofSettings settings) rfl
    constructor
    · intro hf
      cases hbuilt.symm.trans hf
    · intro hf
      cases hf

/-- **The first fault decides.** A document fails with the failure of its least faulty line, whatever
follows, or is understood line by line; and the definition that it describes fails to be built just if
its lines fail to be read, with the same failure. -/
theorem directives_first_fault (t : Text) (now : Int) (settings : Option Settings) :
    (∀ f, directives t = .error f → FirstFault t f) ∧ (∀ ds, directives t = .ok ds → Understood t ds) ∧
      ∀ f, compile now settings t = .error f ↔ directives t = .error f := by
  refine ⟨?_, ?_, ?_⟩
  · intro f h
    exact firstFault h
  · intro ds h
    exact understood h
  · intro f
    exact compile_error_iff

example : directives "# orders\n nonsense \nsource" = .error (Fault.unreadable.toFailure 2 "nonsense") := by rfl

end Document

end EventPipeline
