import EventPipeline.Text.Blank
import EventPipeline.Text.Digit
import EventPipeline.Text.Word
import Mathlib.Data.List.DropRight
import Mathlib.Data.List.TakeWhile
import Mathlib.Tactic.Common
import Mathlib.Tactic.SplitIfs

/-!
# Blanks

No whitespace character is a word character or a digit of any script. What is left of a text that was trimmed neither
starts nor ends with one, so trimming it again changes nothing (`Text.strip_strip`).
-/

namespace EventPipeline

/-! ### Sets of characters without a common one -/

theorem CodeRanges.exists_of_contains {rs : CodeRanges} {n : Nat} (h : rs.contains n = true) :
    ∃ r ∈ rs, r.1 ≤ n ∧ n ≤ r.2 := by
  induction rs with
  | nil => cases h
  | cons r rs ih =>
    obtain ⟨first, last⟩ := r
    rw [contains, start?] at h
    split_ifs at h with hlt hle
    · cases h
    · exact ⟨_, List.mem_cons_self, Nat.not_lt.1 hlt, hle⟩
    · obtain ⟨r, hr, hn⟩ := ih h
      exact ⟨r, List.mem_cons_of_mem _ hr, hn⟩

/-- No range of one set meets a range of the other. -/
def CodeRanges.apart (rs qs : CodeRanges) : Bool := rs.all fun r => qs.all fun q => r.2 < q.1 || q.2 < r.1

theorem CodeRanges.apart_spec {rs qs : CodeRanges} (h : rs.apart qs = true) {n : Nat} (hr : rs.contains n = true) :
    qs.contains n = false := by
  rw [Bool.eq_false_iff]
  intro hq
  obtain ⟨r, hrm, hr₁, hr₂⟩ := exists_of_contains hr
  obtain ⟨q, hqm, hq₁, hq₂⟩ := exists_of_contains hq
  have hrq := List.all_eq_true.1 (List.all_eq_true.1 h r hrm) q hqm
  simp only [Bool.or_eq_true, decide_eq_true_eq] at hrq
  omega

theorem Symbol.blank_apart_alphanumeric : blankRanges.apart alphanumericRanges = true := by decide +kernel

/-- No whitespace character is a word character. -/
theorem Symbol.isWord_of_isBlank {s : Symbol} (h : s.isBlank = true) : s.isWord = false := by
  cases s with
  | surrogate n => rfl
  | char c =>
    rw [Symbol.isWord, Bool.or_eq_false_iff]
    constructor
    · rw [beq_eq_false_iff_ne]
      rintro rfl
      exact absurd h (by decide)
    · exact CodeRanges.apart_spec blank_apart_alphanumeric h

/-- No whitespace character is a digit. -/
theorem Symbol.isDigit_of_isBlank {s : Symbol} (h : s.isBlank = true) : s.isDigit = false := by
  cases s with
  | surrogate n => rfl
  | char c =>
    rw [Symbol.isDigit, Bool.or_eq_false_iff]
    constructor
    · exact CodeRanges.apart_spec (by decide +kernel : blankRanges.apart decimalRanges = true) h
    · exact CodeRanges.apart_spec (by decide +kernel : blankRanges.apart looseDigitRanges = true) h

theorem Symbol.isDigit_of_isDecimal {s : Symbol} (h : s.isDecimal = true) : s.isDigit = true := by
  cases s with
  | surrogate n => cases h
  | char c =>
    rw [Symbol.isDecimal, Symbol.decimalValue?, Option.isSome_map] at h
    rw [Symbol.isDigit, CodeRanges.contains, h, Bool.true_or]

theorem Symbol.isBlank_of_isDecimal {s : Symbol} (h : s.isDecimal = true) : s.isBlank = false := by
  rw [Bool.eq_false_iff]
  intro hb
  have hdigit := isDigit_of_isDecimal h
  rw [isDigit_of_isBlank hb] at hdigit
  cases hdigit

/-! ### Trimmed texts -/

namespace Text

/-- Trimming takes blanks from both ends. -/
theorem strip_spec (t : Text) :
    ∃ a b, t = a ++ (t.strip ++ b) ∧ (∀ s ∈ a, s.isBlank = true) ∧ ∀ s ∈ b, s.isBlank = true := by
  refine ⟨t.takeWhile Symbol.isBlank, ((stripStart t).reverse.takeWhile Symbol.isBlank).reverse, ?_, ?_, ?_⟩
  · rw [strip, stripEnd, ← List.reverse_append, List.takeWhile_append_dropWhile, List.reverse_reverse, stripStart,
      List.takeWhile_append_dropWhile]
  · exact fun s hs => List.mem_takeWhile_imp hs
  · exact fun s hs => List.mem_takeWhile_imp (List.mem_reverse.1 hs)

theorem isBlank_of_stripStart {t u : Text} {s : Symbol} (h : stripStart t = s :: u) : s.isBlank = false := by
  have hhead := List.head_dropWhile_not Symbol.isBlank (l := t) (by rw [← stripStart, h]; simp)
  have hs : (t.dropWhile Symbol.isBlank).head? = some s := by rw [← stripStart, h]; rfl
  rw [(List.head_eq_iff_head?_eq_some _).2 hs] at hhead
  exact hhead

/-- **A trimmed text is trimmed already.** -/
theorem strip_strip (t : Text) : t.strip.strip = t.strip := by
  have hstart : stripStart t.strip = t.strip := by
    cases h : t.strip with
    | nil => rfl
    | cons s u =>
      have hprefix : t.strip <+: stripStart t := by
        rw [strip, stripEnd, ← List.reverse_suffix, List.reverse_reverse]
        exact List.dropWhile_suffix _
      obtain ⟨v, hv⟩ := hprefix
      rw [h, List.cons_append] at hv
      simp [stripStart, isBlank_of_stripStart hv.symm]
  have hend : ∀ u, stripEnd (stripEnd u) = stripEnd u := by
    intro u
    rw [stripEnd, stripEnd, List.reverse_reverse, List.dropWhile_idempotent]
  rw [strip, hstart, strip, hend]

end Text

end EventPipeline
