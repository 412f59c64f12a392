import EventPipeline.Proofs.Document.Editing
import EventPipeline.Proofs.Expression.Safety

/-!
# Refused documents

A document that is not understood is refused for one of its lines: the failure has the number of the line, counted
from one on, and its text (`NamesLine`). There is one exception. A sign that is a digit, but no decimal one, starts a
token of an expression and then turns out to be no number (`HasLooseDigit`); if that is the first fault of a document,
the failure is a broken promise of the lexer, which names no line. So what the main statement `refused_by_line_iff`
says is exact, and only a document with such a sign can be an exception.
-/

namespace EventPipeline

namespace Document

/-! ### Lines of a document -/

theorem subset_documentLines {t raw : Text} (h : raw ∈ t.documentLines) : raw ⊆ t := by
  have hgoes : ∀ {c : Symbol} {t raw : Text}, ¬ c.endsLine = true → (∀ {raw}, raw ∈ t.documentLines → raw ⊆ t) →
      raw ∈ Text.documentLines (c :: t) → raw ⊆ c :: t := by
    intro c t raw hc ih h
    rw [documentLines_cons hc] at h
    rcases List.mem_cons.1 h with rfl | h
    · refine List.cons_subset_cons c ?_
      cases hl : t.documentLines with
      | nil => simp
      | cons line lines => exact ih (by simp [hl])
    · exact fun s hs => List.mem_cons_of_mem _ (ih (List.mem_of_mem_tail h) hs)
  induction t using Text.documentLines.induct generalizing raw with
  | case1 => cases h
  | case2 t ih =>
    rw [Text.documentLines] at h
    rcases List.mem_cons.1 h with rfl | h
    · exact List.nil_subset _
    · exact fun s hs => List.mem_cons_of_mem _ (List.mem_cons_of_mem _ (ih h hs))
  | case3 c t hpair hc ih =>
    rw [documentLines_end hc hpair] at h
    rcases List.mem_cons.1 h with rfl | h
    · exact List.nil_subset _
    · exact fun s hs => List.mem_cons_of_mem _ (ih h hs)
  | case4 c hc head tail line lines hpair hl ih => exact hgoes hc ih h
  | case5 c t hpair hc hl ih => exact hgoes hc ih h

theorem subset_strip (t : Text) : t.strip ⊆ t := by
  intro s hs
  rw [Text.strip, Text.stripEnd, List.mem_reverse] at hs
  exact (List.dropWhile_suffix _).subset (List.mem_reverse.1 ((List.dropWhile_suffix _).subset hs))

theorem mem_said {t line : Text} {number : Nat} (h : (number, line) ∈ said t) :
    ∃ index raw, t.documentLines[index]? = some raw ∧ number = index + 1 ∧ line = raw.strip := by
  obtain ⟨⟨raw, n⟩, hraw, hline⟩ := List.mem_filterMap.1 h
  obtain ⟨line', hm, hpair⟩ := Option.map_eq_some_iff.1 hline
  cases hpair
  obtain ⟨index, hindex⟩ := List.mem_iff_getElem?.1 hraw
  rw [List.getElem?_zipIdx, Option.map_eq_some_iff] at hindex
  obtain ⟨raw', hraw', hpair⟩ := hindex
  cases hpair
  exact ⟨index, raw, hraw', Nat.add_comm _ _, (strip_of_meaningful? hm).symm⟩

theorem said_unique {t line line' : Text} {number : Nat} (h : (number, line) ∈ said t)
    (h' : (number, line') ∈ said t) : line = line' := by
  obtain ⟨index, raw, hraw, hn, rfl⟩ := mem_said h
  obtain ⟨index', raw', hraw', hn', rfl⟩ := mem_said h'
  obtain rfl : index = index' := by omega
  rw [Option.some.inj (hraw.symm.trans hraw')]

theorem subset_of_mem_said {t line : Text} {number : Nat} (h : (number, line) ∈ said t) : line ⊆ t := by
  obtain ⟨index, raw, hraw, -, rfl⟩ := mem_said h
  exact fun s hs => subset_documentLines (List.mem_of_getElem? hraw) (subset_strip raw hs)

/-! ### Failures of lines -/

/-- The failure is one of the document at a line that exists, with its number and its text. -/
def NamesLine (t : Text) (f : Failure) : Prop :=
  ∃ index raw message details cause, t.documentLines[index]? = some raw ∧
    f = lineFailure (index + 1) raw.strip message details cause

/-- The line is a stage in whose body the lexer meets a digit that starts no number. -/
def HasLooseDigit (line : Text) : Prop :=
  ∃ word body left, stageBody? line = some (word, body) ∧ Expression.lex body = .error (.looseDigit left)

/-- The first faulty line of the document is at fault for a digit that starts no number. -/
def BreaksAtDigit (t : Text) : Prop :=
  ∃ number line, (number, line) ∈ said t ∧ HasLooseDigit line ∧ ∀ n, Faulty t n → number ≤ n

variable {t line : Text} {number : Nat}

theorem FaultAt.mem {seen : Table Role Nat} {ls : List (Nat × Text)} {fault : Fault}
    (h : FaultAt seen ls number line fault) : (number, line) ∈ ls := by
  cases h with
  | rejected hm => exact hm
  | repeated hm => exact hm

theorem HasLooseDigit.rejected (h : HasLooseDigit line) :
    ∃ fault, readLine line = .error fault ∧ ∀ number, fault.toFailure number line = .plain .assertion [] := by
  obtain ⟨word, body, left, hbody, hlex⟩ := h
  refine ⟨.expression word body (.lexical (.looseDigit left)), ?_, fun number => rfl⟩
  simp only [readLine, hbody, Expression.compile_of_lex_error hlex]

theorem HasLooseDigit.symbol (h : HasLooseDigit line) : ∃ s ∈ line, Expression.IsLoose s := by
  obtain ⟨word, body, left, hbody, hlex⟩ := h
  obtain ⟨s, hs, hloose⟩ := Expression.loose_of_lexFrom hlex
  obtain ⟨blanks, -, rfl⟩ := stageBody?_eq hbody
  exact ⟨s, by simp [hs], hloose⟩

theorem readConnector_ne_expression {role : Role} {arguments body : Text} {word : StageWord}
    {e : Expression.SyntaxError} : readConnector role arguments ≠ .error (.expression word body e) := by
  unfold readConnector
  split
  · simp
  · split
    · simp
    · dsimp only
      split
      · split <;> simp
      · split <;> simp

theorem readLine_expression {word : StageWord} {body : Text} {e : Expression.SyntaxError}
    (h : readLine line = .error (.expression word body e)) :
    stageBody? line = some (word, body) ∧ Expression.compile body = .error e := by
  have hconnector : ∀ {role arguments}, (readConnector role arguments).map (Command.connect role) ≠
      .error (.expression word body e) := by
    intro role arguments hr
    cases hd : readConnector role arguments with
    | error f =>
      rw [hd] at hr
      cases hr
      exact readConnector_ne_expression hd
    | ok d => simp [hd, Except.map] at hr
  unfold readLine at h
  split at h
  · rename_i word' body' hbody
    cases hcompile : Expression.compile body' with
    | ok e' => simp [hcompile] at h
    | error e' =>
      rw [hcompile] at h
      cases h
      exact ⟨hbody, hcompile⟩
  · split at h
    · cases h
    · split_ifs at h <;> first | exact absurd h hconnector | cases h

/-- Every other line at fault is named by its failure. -/
theorem lineFailure_of_faultAt {seen : Table Role Nat} {ls : List (Nat × Text)} {fault : Fault}
    (h : FaultAt seen ls number line fault) (hdigit : ¬ HasLooseDigit line) :
    ∃ message details cause, fault.toFailure number line = lineFailure number line message details cause := by
  cases h with
  | repeated => exact ⟨_, _, _, rfl⟩
  | rejected hm h =>
    cases fault with
    | expression word body e =>
      obtain ⟨hbody, he⟩ := readLine_expression h
      obtain ⟨l, hlex, rfl⟩ | ⟨_, g, -, -, rfl⟩ | rfl := Expression.compile_error he
      · cases l with
        | looseDigit left => exact absurd ⟨word, body, left, hbody, hlex⟩ hdigit
        | _ => exact ⟨_, _, _, rfl⟩
      · cases g <;> exact ⟨_, _, _, rfl⟩
      · exact ⟨_, _, _, rfl⟩
    | _ => exact ⟨_, _, _, rfl⟩

theorem BreaksAtDigit.failure (h : BreaksAtDigit t) : directives t = .error (.plain .assertion []) := by
  obtain ⟨number, line, hm, hdigit, hleast⟩ := h
  obtain ⟨fault, hfault, hfailure⟩ := hdigit.rejected
  have hhere : Faulty t number := ⟨line, fault, .rejected hm hfault⟩
  cases hd : directives t with
  | ok ds => exact absurd hhere ((understood hd).clean number)
  | error f =>
    obtain ⟨n, line', fault', hfault', hleast', rfl, -⟩ := (firstFault hd).blamed
    obtain rfl : n = number := Nat.le_antisymm (hleast' _ hhere) (hleast _ ⟨line', fault', hfault'⟩)
    obtain rfl : line = line' := said_unique hm hfault'.mem
    cases hfault' with
    | rejected hm' h =>
      obtain rfl := Except.error.inj (h.symm.trans hfault)
      rw [hfailure]
    | repeated hm' h => cases h.symm.trans hfault

theorem directives_namesLine {f : Failure} (h : directives t = .error f) (hdigit : ¬ BreaksAtDigit t) :
    NamesLine t f := by
  obtain ⟨number, line, fault, hfault, hleast, rfl, -⟩ := (firstFault h).blamed
  have hline : ¬ HasLooseDigit line := fun hloose => hdigit ⟨number, line, hfault.mem, hloose, hleast⟩
  obtain ⟨message, details, cause, hf⟩ := lineFailure_of_faultAt hfault hline
  obtain ⟨index, raw, hraw, rfl, rfl⟩ := mem_said hfault.mem
  exact ⟨index, raw, message, details, cause, hraw, hf⟩

/-- **A refused document names a line.** A document is understood or refused with a failure that has the number and
the text of one of its lines, unless its first fault is a sign that is a digit and no decimal one where a number could
start; and then the failure is a broken promise, whatever else the document says. -/
theorem refused_by_line_iff (t : Text) (now : Int) (settings : Option Settings) :
    (((∃ p, compile now settings t = .ok p) ∨ ∃ f, compile now settings t = .error f ∧ NamesLine t f) ↔
        ¬ BreaksAtDigit t) ∧
      (BreaksAtDigit t →
        compile now settings t = .error (.plain .assertion []) ∧ ∃ s ∈ t, Expression.IsLoose s) := by
  have hbroken : BreaksAtDigit t → compile now settings t = .error (.plain .assertion []) :=
    fun h => compile_error_iff.2 h.failure
  refine ⟨⟨?_, fun hdigit => ?_⟩, fun h => ⟨hbroken h, ?_⟩⟩
  · rintro (⟨p, hp⟩ | ⟨f, hf, index, raw, message, details, cause, -, rfl⟩) h
    · cases hp.symm.trans (hbroken h)
    · cases hf.symm.trans (hbroken h)
  · cases hc : compile now settings t with
    | ok p => exact .inl ⟨p, rfl⟩
    | error f => exact .inr ⟨f, rfl, directives_namesLine (compile_error_iff.1 hc) hdigit⟩
  · obtain ⟨number, line, hm, hdigit, -⟩ := h
    obtain ⟨s, hs, hloose⟩ := hdigit.symbol
    exact ⟨s, subset_of_mem_said hm hs, hloose⟩

/-- A superscript is a digit that starts no number. -/
theorem superscript_unnamed :
    ¬ ((∃ p, compile 0 none "filter(²)" = .ok p) ∨
      ∃ f, compile 0 none "filter(²)" = .error f ∧ NamesLine "filter(²)" f) := by
  have h : compile 0 none "filter(²)" = .error (.plain .assertion []) := by rfl
  rintro (⟨p, hp⟩ | ⟨f, hf, index, raw, message, details, cause, -, rfl⟩)
  · cases hp.symm.trans h
  · cases hf.symm.trans h

end Document

end EventPipeline
