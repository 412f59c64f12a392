import EventPipeline.Text.Basic

/-!
# Sets of code points

A property of characters is kept as its maximal ranges of code points, in increasing order.
-/

namespace EventPipeline

/-- Ranges `(first, last)` of code points, both ends included, in increasing order. -/
abbrev CodeRanges := List (Nat × Nat)

namespace CodeRanges

/-- The first code point of the range that holds `n`. -/
def start? : CodeRanges → Nat → Option Nat
  | [], _ => none
  | (first, last) :: rs, n =>
    if n < first then none else if n ≤ last then some first else start? rs n

/-- Some range holds `n`. -/
def contains (rs : CodeRanges) (n : Nat) : Bool :=
  (rs.start? n).isSome

theorem start?_le {rs : CodeRanges} {n first : Nat} (h : rs.start? n = some first) : first ≤ n := by
  induction rs with
  | nil => simp [start?] at h
  | cons r rs ih =>
    obtain ⟨a, b⟩ := r
    rw [start?] at h
    split at h
    · simp at h
    · split at h
      · simp only [Option.some.injEq] at h
        omega
      · exact ih h

end CodeRanges

end EventPipeline
