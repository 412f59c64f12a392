import EventPipeline.Text.Blank
import Mathlib.Tactic.Common

/-!
# Characters that can be seen

The printable ASCII characters other than the space. None of them is blank in any script.
-/

namespace EventPipeline

namespace Symbol

/-- A printable ASCII character other than the space. -/
def isVisible : Symbol → Bool
  | .char c => 0x21 ≤ c.toNat && c.toNat < 0x7F
  | .surrogate _ => false

theorem isVisible_of_isDigit {c : Char} (h : c.isDigit = true) : isVisible (.char c) = true := by
  obtain ⟨h₁, h₂⟩ := Char.isDigit_iff_toNat.1 h
  have h₁ : 48 ≤ c.toNat := h₁
  have h₂ : c.toNat ≤ 57 := h₂
  simp [isVisible]
  omega

/-- What can be seen is not blank. -/
theorem isBlank_of_isVisible {s : Symbol} (h : isVisible s = true) : s.isBlank = false := by
  cases s with
  | char c =>
    simp only [isVisible, Bool.and_eq_true, decide_eq_true_eq] at h
    -- Past the first two ranges, and before the third.
    rw [Symbol.isBlank, CodeRanges.contains, Symbol.blankRanges, CodeRanges.start?, if_neg (by omega), if_neg (by omega),
      CodeRanges.start?, if_neg (by omega), if_neg (by omega), CodeRanges.start?, if_pos (by omega)]
    rfl
  | surrogate n => rfl

end Symbol

end EventPipeline
