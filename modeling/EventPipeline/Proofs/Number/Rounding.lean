import EventPipeline.Number.Shortest
import Mathlib.Algebra.Order.Field.Rat
import Mathlib.Algebra.Order.Ring.Abs
import Mathlib.Data.Rat.Cast.Order
import Mathlib.Tactic.FieldSimp
import Mathlib.Tactic.Linarith
import Mathlib.Tactic.Positivity
import Mathlib.Tactic.Ring

/-!
# Rounding to double precision

`nearestRank num den` computes with two natural numbers; here it becomes a function of their quotient.
The main statement is `nearestRank_eq`: a quotient that is nearer to the magnitude of a rank than half
of the gap to the next rank, on either side, has that rank. At a power of two the gap below is half as
wide as the gap above, so that the condition on that side is stronger.
-/

namespace EventPipeline

namespace Binary64

/-! ### Significands -/

/-- A rank is put together from its scale and its significand. -/
theorem scale_significand (rank : Nat) : scale rank * 2 ^ 52 + significand rank = rank := by
  unfold scale significand
  split_ifs <;> omega

theorem significand_lt (rank : Nat) : significand rank < 2 ^ 53 := by
  unfold significand
  split_ifs <;> omega

theorem le_significand {rank : Nat} (h : scale rank ≠ 0) : 2 ^ 52 ≤ significand rank := by
  unfold scale at h
  unfold significand
  split_ifs <;> omega

theorem significand_pos {rank : Nat} (h : rank ≠ 0) : 0 < significand rank := by
  unfold significand
  split_ifs <;> omega

theorem units_pos {rank : Nat} (h : rank ≠ 0) : 0 < units rank :=
  Nat.mul_pos (significand_pos h) (by positivity)

theorem unitsPerOne_pos : 0 < unitsPerOne := by
  unfold unitsPerOne
  positivity

/-! ### Quotients -/

/-- The nearest natural number, if no other one is as near. -/
theorem nearestQuotient_eq {num den k : Nat} (hu : 2 * num < (2 * k + 1) * den) (hl : 2 * k * den < 2 * num + den) :
    nearestQuotient num den = k := by
  have hd : 0 < den := Nat.pos_of_ne_zero fun h => by simp [h] at hu
  have hnum := Nat.div_add_mod num den
  have hr := Nat.mod_lt num hd
  unfold nearestQuotient
  generalize num / den = q at *
  generalize num % den = r at *
  dsimp only
  have hqk : 2 * q < 2 * k + 1 := by
    refine Nat.lt_of_mul_lt_mul_right (a := den) (lt_of_le_of_lt ?_ hu)
    rw [← hnum, mul_assoc, mul_comm q den]
    omega
  have hkq : 2 * k < 2 * q + 3 := by
    refine Nat.lt_of_mul_lt_mul_right (a := den) (lt_of_lt_of_le hl ?_)
    rw [← hnum, add_mul, mul_assoc, mul_comm q den]
    omega
  rcases Nat.lt_trichotomy (2 * r) den with h | h | h
  · have : 2 * k < 2 * q + 2 := by
      refine Nat.lt_of_mul_lt_mul_right (a := den) (lt_of_lt_of_le hl ?_)
      rw [← hnum, add_mul, mul_assoc, mul_comm q den]
      omega
    rw [if_pos h]
    omega
  · have h₁ : 2 * k < 2 * q + 2 := by
      refine Nat.lt_of_mul_lt_mul_right (a := den) (lt_of_lt_of_le hl ?_)
      rw [← hnum, add_mul, mul_assoc, mul_comm q den]
      omega
    have h₂ : 2 * q + 1 < 2 * k + 1 := by
      refine Nat.lt_of_mul_lt_mul_right (a := den) (lt_of_le_of_lt ?_ hu)
      rw [← hnum, add_mul, mul_assoc, mul_comm q den]
      omega
    omega
  · have : 2 * q + 1 < 2 * k + 1 := by
      refine Nat.lt_of_mul_lt_mul_right (a := den) (lt_of_le_of_lt ?_ hu)
      rw [← hnum, add_mul, mul_assoc, mul_comm q den]
      omega
    rw [if_neg (by omega), if_pos h]
    omega

/-- Common factors do not matter. -/
theorem nearestQuotient_mul (num den : Nat) {k : Nat} (hk : 0 < k) :
    nearestQuotient (num * k) (den * k) = nearestQuotient num den := by
  unfold nearestQuotient
  rw [Nat.mul_div_mul_right _ _ hk, Nat.mul_mod_mul_right]
  have h₁ : 2 * (num % den * k) < den * k ↔ 2 * (num % den) < den := by
    rw [← mul_assoc]
    exact Nat.mul_lt_mul_right hk
  have h₂ : den * k < 2 * (num % den * k) ↔ den < 2 * (num % den) := by
    rw [← mul_assoc]
    exact Nat.mul_lt_mul_right hk
  simp only [h₁, h₂]

theorem nearestRank_mul (num den : Nat) {k : Nat} (hk : 0 < k) :
    nearestRank (num * k) (den * k) = nearestRank num den := by
  unfold nearestRank
  rw [Nat.mul_div_mul_right _ _ hk]
  dsimp only
  rw [mul_right_comm den k, nearestQuotient_mul _ _ hk]

/-- The nearest rank depends on the quotient only. -/
theorem nearestRank_congr {a b c d : Nat} (hb : 0 < b) (hd : 0 < d) (h : a * d = c * b) :
    nearestRank a b = nearestRank c d := by
  rw [← nearestRank_mul a b hd, h, mul_comm b d, nearestRank_mul c d hb]

/-! ### The nearest rank -/

/-- The scale that rounding picks. -/
theorem log2_sub_eq {num den s : Nat} (hd : 0 < den) (hu : num < 2 ^ (53 + s) * den)
    (hl : s = 0 ∨ 2 ^ (52 + s) * den ≤ num) : Nat.log2 (num / den) - 52 = s := by
  have hq : num / den < 2 ^ (53 + s) := Nat.div_lt_of_lt_mul (by rwa [mul_comm])
  by_cases h0 : num / den = 0
  · rcases hl with rfl | hl
    · rw [h0, Nat.log2_zero]
    · have := (Nat.le_div_iff_mul_le hd).2 hl
      have hpos : 0 < 2 ^ (52 + s) := by positivity
      omega
  · have h₁ : Nat.log2 (num / den) < 53 + s := (Nat.log2_lt h0).2 hq
    rcases hl with rfl | hl
    · omega
    · have h₂ : 52 + s ≤ Nat.log2 (num / den) := (Nat.le_log2 h0).2 ((Nat.le_div_iff_mul_le hd).2 hl)
      omega

/-- **A quotient near enough to the magnitude of a rank has that rank.** -/
theorem nearestRank_eq {num den rank : Nat} (hd : 0 < den)
    (hu : (num : ℚ) / den < units rank + 2 ^ scale rank / 2)
    (hl : (units rank : ℚ) - 2 ^ scale rank / 2 < num / den)
    (hp : significand rank = 2 ^ 52 → (units rank : ℚ) - 2 ^ scale rank / 4 < num / den) :
    nearestRank num den = rank := by
  have hm := significand_lt rank
  have hs := @le_significand rank
  have hr := scale_significand rank
  unfold units at hu hl hp
  generalize significand rank = m at *
  generalize scale rank = s at *
  have hdq : (0 : ℚ) < den := by exact_mod_cast hd
  rw [div_lt_iff₀ hdq] at hu
  rw [lt_div_iff₀ hdq] at hl
  have hu' : 2 * num < (2 * m + 1) * (den * 2 ^ s) := by
    have : (2 : ℚ) * num < (2 * m + 1) * (den * 2 ^ s) := by push_cast at hu; linarith
    exact_mod_cast this
  have hl' : 2 * m * (den * 2 ^ s) < 2 * num + den * 2 ^ s := by
    have : (2 : ℚ) * m * (den * 2 ^ s) < 2 * num + den * 2 ^ s := by push_cast at hl; linarith
    exact_mod_cast this
  have htop : num < 2 ^ (53 + s) * den := by
    have : (2 * m + 1) * (den * 2 ^ s) ≤ 2 ^ 54 * (den * 2 ^ s) := Nat.mul_le_mul_right _ (by omega)
    rw [pow_add]
    have h2 : 2 ^ 54 * (den * 2 ^ s) = 2 * (2 ^ 53 * 2 ^ s * den) := by ring
    omega
  by_cases hcase : s = 0 ∨ 2 ^ (52 + s) * den ≤ num
  · rw [nearestRank, log2_sub_eq hd htop hcase, nearestQuotient_eq hu' hl', hr]
  · -- the quotient lies below the power of two that the rank stands for, at half the scale
    obtain ⟨hs0, hlow⟩ := not_or.1 hcase
    have hlow : num < 2 ^ (52 + s) * den := Nat.lt_of_not_le hlow
    have hm52 : m = 2 ^ 52 := by
      have h₁ : 2 * m * (den * 2 ^ s) < (2 ^ 53 + 1) * (den * 2 ^ s) := by
        have h : 2 ^ (52 + s) * den = 2 ^ 52 * (den * 2 ^ s) := by ring
        rw [h] at hlow
        omega
      have h₂ := Nat.lt_of_mul_lt_mul_right h₁
      have h₃ := hs hs0
      omega
    obtain ⟨t, rfl⟩ : ∃ t, s = t + 1 := Nat.exists_eq_add_one_of_ne_zero hs0
    have hp := hp hm52
    rw [hm52, lt_div_iff₀ hdq] at hp
    have hp' : 2 ^ 54 * (den * 2 ^ t) < 2 * num + den * 2 ^ t := by
      have : (2 : ℚ) ^ 54 * (den * 2 ^ t) < 2 * num + den * 2 ^ t := by
        push_cast [pow_succ] at hp ⊢
        linarith
      exact_mod_cast this
    have h53 : 2 ^ (52 + (t + 1)) * den = 2 ^ 53 * (den * 2 ^ t) := by ring
    rw [h53] at hlow
    have hscale : Nat.log2 (num / den) - 52 = t := by
      refine log2_sub_eq hd ?_ (.inr ?_)
      · have h : 2 ^ (53 + t) * den = 2 ^ 53 * (den * 2 ^ t) := by ring
        rw [h]
        exact hlow
      · have h : 2 ^ (52 + t) * den = 2 ^ 52 * (den * 2 ^ t) := by ring
        rw [h]
        omega
    have hquot : nearestQuotient num (den * 2 ^ t) = 2 ^ 53 := nearestQuotient_eq (by omega) (by omega)
    rw [nearestRank, hscale, hquot, ← hr, hm52]
    ring

end Binary64

end EventPipeline
