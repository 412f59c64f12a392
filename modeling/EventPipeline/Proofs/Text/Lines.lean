import EventPipeline.Text.Lines
import Mathlib.Tactic.Common

/-!
# Lines that are put together and cut again

Lines that were put one after the other, each with a line feed at its end, are the lines of the file
(`fileLines_flatMap`), and what was blank about them can be taken off again (`strip_append`). Reading a file
changes nothing but carriage returns (`foldLineEnds_of_notMem`).
-/

namespace EventPipeline

namespace Text

/-- A text without carriage returns has the line ends of a file. -/
theorem foldLineEnds_of_notMem {t : Text} (h : .char '\r' ∉ t) : t.foldLineEnds = t := by
  induction t with
  | nil => rfl
  | cons s t ih =>
    have hs : s ≠ .char '\r' := fun hs => h (hs ▸ List.mem_cons_self)
    rw [foldLineEnds, ih fun hm => h (List.mem_cons_of_mem _ hm)]
    · exact fun _ hs' _ => hs hs'
    · exact hs

/-- A text without line ends of a file. -/
def OnOneLine (t : Text) : Prop := .char '\n' ∉ t ∧ .char '\r' ∉ t

/-- The first line of a file. -/
theorem fileLines_append {line : Text} (h : OnOneLine line) (rest : Text) :
    fileLines (line ++ .char '\n' :: rest) = (line ++ [.char '\n']) :: fileLines rest := by
  induction line with
  | nil => rw [List.nil_append, fileLines, List.nil_append]
  | cons s line ih =>
    simp only [OnOneLine, List.mem_cons, not_or] at h ih
    have hmore := ih ⟨h.1.2, h.2.2⟩
    obtain ⟨r, more, htext⟩ := List.exists_cons_of_ne_nil (l := line ++ .char '\n' :: rest) (by simp)
    rw [List.cons_append, List.cons_append, fileLines.eq_def]
    rw [htext] at hmore ⊢
    split
    · cases ‹_ = _›
    · rename_i heq
      exact absurd (List.cons.inj heq).1.symm h.2.1
    · rename_i heq
      exact absurd (List.cons.inj heq).1.symm h.2.1
    · rename_i heq
      exact absurd (List.cons.inj heq).1.symm h.1.1
    · rename_i heq
      cases heq
      rw [hmore]

/-- **The lines of a file that was written line by line.** -/
theorem fileLines_flatMap {lines : List Text} (h : ∀ line ∈ lines, OnOneLine line) :
    fileLines (lines.flatMap (· ++ [.char '\n'])) = lines.map (· ++ [.char '\n']) := by
  induction lines with
  | nil => rfl
  | cons line lines ih =>
    rw [List.forall_mem_cons] at h
    rw [List.flatMap_cons, List.append_assoc, List.singleton_append, fileLines_append h.1, ih h.2, List.map_cons]

/-- What neither starts nor ends with a blank is left of it with blanks at its end. -/
theorem strip_append {t b : Text} (hfirst : ∃ s u, t = s :: u ∧ s.isBlank = false)
    (hlast : ∃ u s, t = u ++ [s] ∧ s.isBlank = false) (hb : ∀ s ∈ b, s.isBlank = true) : strip (t ++ b) = t := by
  have hstart : stripStart (t ++ b) = t ++ b := by
    obtain ⟨s, u, rfl, hs⟩ := hfirst
    simp [stripStart, hs]
  obtain ⟨u, s, rfl, hs⟩ := hlast
  have hb : ∀ r ∈ b.reverse, r.isBlank = true := by simpa using hb
  rw [strip, hstart, stripEnd, List.reverse_append, List.dropWhile_append_of_pos hb]
  simp [hs]

end Text

end EventPipeline
