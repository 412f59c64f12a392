import EventPipeline.Proofs.Number.Range
import EventPipeline.Proofs.Number.Shortest
import EventPipeline.Proofs.Number.Value
import Mathlib.Algebra.Order.Floor.Ring
import Mathlib.Data.Rat.Floor

/-!
# The nearest double precision number

Sums, products and quotients are exact and rounded once, so one relation speaks of all of them: `Nearest v x` says that
`x` is what a rational number `v` is rounded to. Rounding keeps the order (`Nearest.mono`) and leaves alone what has a
place among the double precision numbers; it even corrects a relative error of up to `2 ^ -54` (`Nearest.of_nearOne`).
The double precision numbers include all fractions of a power of two with a numerator up to `2 ^ 53`
(`isDouble_dyadic`). Halfway between two integers of the last size at which halves are not to be had, the even one is
taken (`Nearest.of_half`).
-/

namespace EventPipeline

namespace Binary64

open Number (rational)

/-! ### Magnitudes in order -/

theorem units_mono {q r : Nat} (h : q ≤ r) : units q ≤ units r := by
  have hq := scale_significand q
  have hr := scale_significand r
  have hscale : scale q ≤ scale r := by
    unfold scale
    omega
  rcases hscale.eq_or_lt with heq | hlt
  · rw [units, units, heq]
    exact Nat.mul_le_mul_right _ (by omega)
  · calc units q ≤ 2 ^ 53 * 2 ^ scale q := Nat.mul_le_mul_right _ (significand_lt q).le
      _ = 2 ^ 52 * 2 ^ (scale q + 1) := by ring
      _ ≤ 2 ^ 52 * 2 ^ scale r := Nat.mul_le_mul_left _ (Nat.pow_le_pow_right (by decide) hlt)
      _ ≤ units r := Nat.mul_le_mul_right _ (le_significand (by omega))

theorem nearestQuotient_mono (den : Nat) {num num' : Nat} (h : num ≤ num') :
    nearestQuotient num den ≤ nearestQuotient num' den := by
  rcases (Nat.div_le_div_right (c := den) h).eq_or_lt with heq | hlt
  · have hmod : num % den ≤ num' % den := by
      have hnum := Nat.div_add_mod num den
      have hnum' := Nat.div_add_mod num' den
      rw [heq] at hnum
      omega
    unfold nearestQuotient
    rw [heq]
    dsimp only
    split_ifs <;> omega
  · have hbelow := (nearestQuotient_bounds num den).2
    have habove := (nearestQuotient_bounds num' den).1
    omega

/-- **Rounding keeps the order** of quotients. -/
theorem nearestRank_mono {a b c d : Nat} (hb : 0 < b) (hd : 0 < d) (h : a * d ≤ c * b) :
    nearestRank a b ≤ nearestRank c d := by
  rw [← nearestRank_mul a b hd, ← nearestRank_mul c d hb, mul_comm d b]
  have hden : 0 < b * d := Nat.mul_pos hb hd
  generalize a * d = num at *
  generalize c * b = num' at *
  generalize b * d = den at *
  have hdiv : num / den ≤ num' / den := Nat.div_le_div_right h
  have hlog : Nat.log2 (num / den) - 52 ≤ Nat.log2 (num' / den) - 52 := by
    by_cases h0 : num / den = 0
    · simp [h0]
    · have h0' : num' / den ≠ 0 := (lt_of_lt_of_le (Nat.pos_of_ne_zero h0) hdiv).ne'
      exact Nat.sub_le_sub_right ((Nat.le_log2 h0').2 (le_trans (Nat.log2_self_le h0) hdiv)) _
  rcases hlog.eq_or_lt with heq | hlt
  · rw [nearestRank, nearestRank, heq]
    exact Nat.add_le_add_left (nearestQuotient_mono _ h) _
  · -- the scales differ: one rank ends before the other one begins
    have h0' : num' / den ≠ 0 := by
      intro h0
      simp [h0] at hlt
    have hbelow : nearestRank num den ≤ (Nat.log2 (num / den) - 52 + 2) * 2 ^ 52 := by
      refine nearestRank_le ((Nat.div_lt_iff_lt_mul hden).1 (lt_of_lt_of_le Nat.lt_log2_self ?_))
      exact Nat.pow_le_pow_right (by decide) (by omega)
    have habove : (Nat.log2 (num' / den) - 52 + 1) * 2 ^ 52 ≤ nearestRank num' den := by
      refine le_nearestRank hden ?_
      rw [← Nat.le_div_iff_mul_le hden]
      exact le_trans (Nat.pow_le_pow_right (by decide) (by omega)) (Nat.log2_self_le h0')
    refine le_trans hbelow (le_trans (Nat.mul_le_mul_right _ ?_) habove)
    omega

/-! ### What a rational number is rounded to -/

/-- A magnitude with a sign. -/
def signed (negative : Bool) (v : ℚ) : ℚ := if negative then -v else v

theorem signed_xor (s t : Bool) (v w : ℚ) : signed (s != t) (v * w) = signed s v * signed t w := by
  cases s <;> cases t <;> simp [signed]

theorem abs_signed {s : Bool} {v : ℚ} (h : 0 ≤ v) : |signed s v| = v := by
  cases s <;> simp [signed, abs_of_nonneg h]

theorem signed_mul (s : Bool) (c v : ℚ) : signed s (c * v) = c * signed s v := by
  cases s <;> simp [signed]

theorem signed_eq_signed {s t : Bool} {v : ℚ} (h : signed s v = signed t v) (u : ℚ) :
    signed s (v * u) = signed t (v * u) := by
  rw [mul_comm, signed_mul, signed_mul, h]

theorem signed_natAbs (z : ℤ) : signed (decide (z < 0)) z.natAbs = z := by
  rcases lt_or_ge z 0 with h | h
  · rw [decide_eq_true h, signed, if_pos rfl, Nat.cast_natAbs, abs_of_neg h, Int.cast_neg, neg_neg]
  · rw [decide_eq_false (not_lt.2 h), signed, if_neg Bool.false_ne_true, Nat.cast_natAbs, abs_of_nonneg h]

theorem rational_eq (s : Bool) (r : Nat) : rational s r = signed s (units r / unitsPerOne) := by
  cases s with
  | false => rw [rational, signed, signedUnits, if_neg Bool.false_ne_true, if_neg Bool.false_ne_true, Int.cast_natCast]
  | true => rw [rational, signed, signedUnits, if_pos rfl, if_pos rfl, Int.cast_neg, Int.cast_natCast, neg_div]

/-- A rational number is rounded to `x`: to its quotient in natural numbers the nearest one is `x`. A zero may have
either sign. -/
def Nearest (v : ℚ) (x : Binary64) : Prop :=
  ∃ (negative : Bool) (num den : Nat), 0 < den ∧ v = signed negative (num / den) ∧ x = ofRatio negative num den

theorem exists_nearest (v : ℚ) : ∃ x, Nearest v x := by
  refine ⟨_, decide (v.num < 0), v.num.natAbs, v.den, v.den_pos, ?_, rfl⟩
  conv_lhs => rw [← Rat.num_div_den v]
  rw [div_eq_inv_mul, div_eq_inv_mul, signed_mul, signed_natAbs]

theorem eq_of_ofRatio {negative s : Bool} {num den : Nat} {r : Fin (2047 * 2 ^ 52)}
    (h : .finite s r = ofRatio negative num den) : s = negative ∧ r.val = nearestRank (num * unitsPerOne) den := by
  rw [ofRatio, ofUnits, ofRank] at h
  split_ifs at h
  cases h
  exact ⟨rfl, rfl⟩

theorem nearest_cases {v : ℚ} {s : Bool} {r : Fin (2047 * 2 ^ 52)} (h : Nearest v (.finite s r)) :
    ∃ num den : Nat, 0 < den ∧ v = signed s (num / den) ∧ r.val = nearestRank (num * unitsPerOne) den := by
  obtain ⟨negative, num, den, hden, hv, hx⟩ := h
  obtain ⟨rfl, hr⟩ := eq_of_ofRatio hx
  exact ⟨num, den, hden, hv, hr⟩

theorem nearestRank_zero (den : Nat) : nearestRank 0 den = 0 := by
  simp [nearestRank, nearestQuotient]

theorem rational_false (r : Nat) : rational false r = units r / unitsPerOne := rational_eq false r

theorem rational_true (r : Nat) : rational true r = -rational false r := by
  rw [rational_eq, rational_false]
  rfl

theorem rational_zero (s : Bool) : rational s 0 = 0 := by
  have hunits : units 0 = 0 := by rw [units, significand, if_pos (Nat.two_pow_pos 52), Nat.zero_mul]
  rw [rational_eq, hunits, Nat.cast_zero, zero_div]
  cases s <;> simp [signed]

theorem rational_false_nonneg (r : Nat) : 0 ≤ rational false r := by
  rw [rational_false]
  exact div_nonneg (Nat.cast_nonneg _) (Nat.cast_nonneg _)

theorem rational_false_mono {q r : Nat} (h : q ≤ r) : rational false q ≤ rational false r := by
  rw [rational_false, rational_false]
  exact div_le_div_of_nonneg_right (Nat.cast_le.2 (units_mono h)) (Nat.cast_nonneg _)

theorem magnitude_mono {a b c d : Nat} (hb : 0 < b) (hd : 0 < d) (h : (a : ℚ) / b ≤ c / d) :
    nearestRank (a * unitsPerOne) b ≤ nearestRank (c * unitsPerOne) d := by
  have hcross : a * d ≤ c * b := by
    rw [div_le_div_iff₀ (by exact_mod_cast hb) (by exact_mod_cast hd)] at h
    exact_mod_cast h
  refine nearestRank_mono hb hd ?_
  rw [Nat.mul_right_comm, Nat.mul_right_comm c]
  exact Nat.mul_le_mul_right _ hcross

/-- **Rounding keeps the order.** -/
theorem Nearest.mono {v w : ℚ} {s t : Bool} {q r : Fin (2047 * 2 ^ 52)} (hv : Nearest v (.finite s q))
    (hw : Nearest w (.finite t r)) (h : v ≤ w) : rational s q ≤ rational t r := by
  obtain ⟨a, b, hb, rfl, hq⟩ := nearest_cases hv
  obtain ⟨c, d, hd, rfl, hr⟩ := nearest_cases hw
  rw [hq, hr]
  have hab : (0 : ℚ) ≤ a / b := by positivity
  have hcd : (0 : ℚ) ≤ c / d := by positivity
  cases s <;> cases t <;> simp only [signed, Bool.false_eq_true, if_false, if_true] at h
  · exact rational_false_mono (magnitude_mono hb hd h)
  · -- what is neither below nor above zero is rounded to a zero
    have ha : (a : ℚ) / b ≤ (0 : ℕ) / (1 : ℕ) := by simpa using le_trans h (neg_nonpos.2 hcd)
    have hc : (c : ℚ) / d ≤ (0 : ℕ) / (1 : ℕ) := by simpa using le_trans (le_neg_of_le_neg h) (neg_nonpos.2 hab)
    have hq0 := magnitude_mono hb Nat.one_pos ha
    have hr0 := magnitude_mono hd Nat.one_pos hc
    rw [Nat.zero_mul, nearestRank_zero, Nat.le_zero] at hq0 hr0
    rw [hq0, hr0, rational_zero, rational_zero]
  · rw [rational_true]
    exact le_trans (neg_nonpos.2 (rational_false_nonneg _)) (rational_false_nonneg _)
  · rw [rational_true, rational_true]
    exact neg_le_neg (rational_false_mono (magnitude_mono hd hb (neg_le_neg_iff.1 h)))

/-- What lies below the limit is rounded to a finite number. -/
theorem Nearest.exists_finite {v : ℚ} {x : Binary64} (h : Nearest v x) (hv : |v| < limit) :
    ∃ s r, x = .finite s r := by
  obtain ⟨negative, num, den, hden, rfl, rfl⟩ := h
  rw [abs_signed (by positivity), div_lt_iff₀ (by exact_mod_cast hden)] at hv
  exact (ofRatio_isFinite_iff negative num hden).2 (by exact_mod_cast hv)

/-! ### What is rounded to a given number -/

/-- A factor so near to one that no double precision number is lost to it. -/
structure NearOne (c : ℚ) : Prop where
  /-- It is not too small. -/
  lower : 1 - 1 / 2 ^ 54 < c
  /-- Its inverse is not too small. -/
  upper : c * (1 - 1 / 2 ^ 54) < 1

theorem NearOne.pos {c : ℚ} (h : NearOne c) : 0 < c := lt_trans (by norm_num) h.lower

theorem nearOne_one : NearOne 1 := ⟨by norm_num, by norm_num⟩

theorem NearOne.inv {c : ℚ} (h : NearOne c) : NearOne c⁻¹ := by
  have hpos := h.pos
  refine ⟨?_, ?_⟩
  · rw [lt_inv_comm₀ (by norm_num) hpos, ← one_div, lt_div_iff₀ (by norm_num)]
    exact h.upper
  · rw [inv_mul_lt_iff₀ hpos, mul_one]
    exact h.lower

theorem NearOne.sub_one_le {c : ℚ} (h : NearOne c) : |c - 1| ≤ 1 / 2 ^ 53 := by
  have hlower := h.lower
  have hupper := h.upper
  rw [abs_le]
  constructor <;> linarith

/-- A magnitude that is off by a factor near to one still has its rank. -/
theorem nearestRank_of_nearOne {c : ℚ} (hc : NearOne c) {num den rank : Nat} (hd : 0 < den)
    (h : (num : ℚ) / den = c * units rank) : nearestRank num den = rank := by
  rcases Nat.eq_zero_or_pos rank with rfl | hrank
  · have h0 : (num : ℚ) / den = 0 := by simpa [units, significand] using h
    rcases div_eq_zero_iff.1 h0 with h0 | h0
    · rw [Nat.cast_eq_zero.1 h0, nearestRank_zero]
    · exact absurd (Nat.cast_eq_zero.1 h0) hd.ne'
  have hsig : (significand rank : ℚ) ≤ 2 ^ 53 - 1 := by
    have hlt : ((significand rank + 1 : ℕ) : ℚ) ≤ 2 ^ 53 := by exact_mod_cast significand_lt rank
    push_cast at hlt
    linarith
  have hs : (0 : ℚ) < 2 ^ scale rank := by positivity
  have hunits : (units rank : ℚ) = significand rank * 2 ^ scale rank := by
    unfold units
    push_cast
    rfl
  have hpos : (0 : ℚ) < units rank := by exact_mod_cast units_pos hrank.ne'
  have hupper : c * units rank * (1 - 1 / 2 ^ 54) < units rank := by
    have := mul_lt_mul_of_pos_right hc.upper hpos
    linarith
  have hlower : (1 - 1 / 2 ^ 54) * units rank < c * units rank := mul_lt_mul_of_pos_right hc.lower hpos
  have hwide : (units rank : ℚ) ≤ (2 ^ 53 - 1) * 2 ^ scale rank := by
    rw [hunits]
    exact mul_le_mul_of_nonneg_right hsig hs.le
  refine nearestRank_eq hd ?_ ?_ fun hm => ?_ <;> rw [h]
  · generalize c * (units rank : ℚ) = v at *
    linarith
  · linarith
  · have : (units rank : ℚ) = 2 ^ 52 * 2 ^ scale rank := by
      rw [hunits, hm]
      norm_num
    linarith

/-- **A number that is off by a factor near to one is found again.** -/
theorem Nearest.of_nearOne {c : ℚ} (hc : NearOne c) {s : Bool} {r : Fin (2047 * 2 ^ 52)} {x : Binary64}
    (h : Nearest (c * rational s r) x) : ∃ t, x = .finite t r ∧ rational t r = rational s r := by
  obtain ⟨t, num, den, hden, hv, rfl⟩ := h
  have hU : (0 : ℚ) < unitsPerOne := Nat.cast_pos.2 unitsPerOne_pos
  have hmagnitude : (num : ℚ) / den = c * (units r / unitsPerOne) := by
    have hleft : (0 : ℚ) ≤ num / den := div_nonneg (Nat.cast_nonneg _) (Nat.cast_nonneg _)
    have hright : 0 ≤ c * (units r / unitsPerOne) := mul_nonneg hc.pos.le (div_nonneg (Nat.cast_nonneg _) hU.le)
    rw [← abs_signed (s := t) hleft, ← hv, rational_eq, ← signed_mul, abs_signed hright]
  have hrank : nearestRank (num * unitsPerOne) den = r := by
    refine nearestRank_of_nearOne hc hden ?_
    rw [Nat.cast_mul, mul_div_right_comm, hmagnitude, mul_assoc, div_mul_cancel₀ _ hU.ne']
  refine ⟨t, by rw [ofRatio, ofUnits, hrank, ofRank, dif_pos r.isLt], ?_⟩
  rw [hmagnitude, rational_eq, ← signed_mul] at hv
  have hsame := signed_eq_signed hv.symm c⁻¹
  rwa [mul_comm, ← mul_assoc, inv_mul_cancel₀ hc.pos.ne', one_mul, ← rational_eq, ← rational_eq] at hsame

/-- **A double precision number is rounded to itself.** -/
theorem Nearest.of_eq {v : ℚ} {s : Bool} {r : Fin (2047 * 2 ^ 52)} {x : Binary64} (h : Nearest v x)
    (hv : v = rational s r) : ∃ t, x = .finite t r ∧ rational t r = v := by
  subst hv
  rw [← one_mul (rational s r)] at h
  exact h.of_nearOne nearOne_one

/-! ### The magnitude of the nearest rank -/

/-- A rank is put together from a scale and a significand. -/
theorem units_of_parts {s q : Nat} (hq : q < 2 ^ 53) (hs : s = 0 ∨ 2 ^ 52 ≤ q) :
    units (s * 2 ^ 52 + q) = q * 2 ^ s := by
  have hscale : scale (s * 2 ^ 52 + q) = s := by
    unfold scale
    omega
  have hsig : significand (s * 2 ^ 52 + q) = q := by
    have := scale_significand (s * 2 ^ 52 + q)
    omega
  rw [units, hscale, hsig]

/-- The scale that rounding picks leaves a quotient of 53 binary digits, or a smaller one at the least scale. -/
theorem quotient_bounds (num den : Nat) :
    num / (den * 2 ^ (Nat.log2 (num / den) - 52)) < 2 ^ 53 ∧
      (Nat.log2 (num / den) - 52 = 0 ∨ 2 ^ 52 ≤ num / (den * 2 ^ (Nat.log2 (num / den) - 52))) := by
  rw [← Nat.div_div_eq_div_mul]
  generalize num / den = n
  constructor
  · rw [Nat.div_lt_iff_lt_mul (by positivity), ← pow_add]
    exact lt_of_lt_of_le Nat.lt_log2_self (Nat.pow_le_pow_right (by decide) (by omega))
  · rcases Nat.eq_zero_or_pos (Nat.log2 n - 52) with h | h
    · exact .inl h
    · have h0 : n ≠ 0 := fun h0 => by simp [h0] at h
      refine .inr ((Nat.le_div_iff_mul_le (by positivity)).2 ?_)
      rw [← pow_add]
      exact le_trans (Nat.pow_le_pow_right (by decide) (by omega)) (Nat.log2_self_le h0)

/-- **The magnitude of the nearest rank** is the nearest multiple of the power of two that its scale stands for. -/
theorem units_nearestRank (num den : Nat) :
    units (nearestRank num den) = nearestQuotient num (den * 2 ^ (Nat.log2 (num / den) - 52)) *
      2 ^ (Nat.log2 (num / den) - 52) := by
  obtain ⟨hbelow, habove⟩ := quotient_bounds num den
  rw [nearestRank]
  generalize Nat.log2 (num / den) - 52 = s at *
  have hbounds := nearestQuotient_bounds num (den * 2 ^ s)
  generalize nearestQuotient num (den * 2 ^ s) = q at *
  rcases Nat.lt_or_ge q (2 ^ 53) with hq | hq
  · exact units_of_parts hq (by omega)
  · -- the quotient was rounded up to the next power of two, which has a rank of the next scale
    obtain rfl : q = 2 ^ 53 := by omega
    have hcarry : s * 2 ^ 52 + 2 ^ 53 = (s + 1) * 2 ^ 52 + 2 ^ 52 := by ring
    rw [hcarry, units_of_parts (by decide) (.inr (le_refl _))]
    ring

theorem nearestQuotient_mul_right (q : Nat) {den : Nat} (hd : 0 < den) : nearestQuotient (q * den) den = q := by
  simp [nearestQuotient, Nat.mul_div_cancel _ hd, hd]

/-- What has no more than 53 binary digits is a magnitude. -/
theorem units_nearestRank_exact {m : Nat} (t : Nat) (hm : m < 2 ^ 53) :
    units (nearestRank (m * 2 ^ t) 1) = m * 2 ^ t := by
  have hscale : Nat.log2 (m * 2 ^ t / 1) - 52 ≤ t := by
    rw [Nat.div_one]
    rcases Nat.eq_zero_or_pos m with rfl | hpos
    · simp
    · have h0 : m * 2 ^ t ≠ 0 := (Nat.mul_pos hpos (by positivity)).ne'
      have hlog : Nat.log2 (m * 2 ^ t) < 53 + t := by
        rw [Nat.log2_lt h0, pow_add]
        exact Nat.mul_lt_mul_of_pos_right hm (by positivity)
      omega
  rw [units_nearestRank]
  generalize Nat.log2 (m * 2 ^ t / 1) - 52 = s at *
  obtain ⟨u, rfl⟩ := Nat.exists_eq_add_of_le' hscale
  rw [pow_add, ← mul_assoc, Nat.one_mul, nearestQuotient_mul_right _ (by positivity)]

/-- A magnitude halfway between two others is rounded to the one with an even significand. -/
theorem units_nearestRank_half {w : Nat} (t : Nat) (hl : 2 ^ 52 ≤ w) (hu : w < 2 ^ 53) :
    units (nearestRank ((2 * w + 1) * 2 ^ t) 1) = (w + w % 2) * 2 ^ (t + 1) := by
  have hscale : Nat.log2 ((2 * w + 1) * 2 ^ t / 1) - 52 = t + 1 := by
    refine log2_sub_eq Nat.one_pos ?_ (.inr ?_)
    · have hpow : 2 ^ (53 + (t + 1)) * 1 = 2 ^ 54 * 2 ^ t := by ring
      rw [hpow]
      exact Nat.mul_lt_mul_of_pos_right (by omega) (by positivity)
    · have hpow : 2 ^ (52 + (t + 1)) * 1 = 2 ^ 53 * 2 ^ t := by ring
      rw [hpow]
      exact Nat.mul_le_mul_right _ (by omega)
  have hden : 1 * 2 ^ (t + 1) = 2 * 2 ^ t := by ring
  rw [units_nearestRank, hscale, hden, nearestQuotient_mul _ _ (by positivity)]
  have hdiv : (2 * w + 1) / 2 = w := by omega
  have hmod : (2 * w + 1) % 2 = 1 := by omega
  simp [nearestQuotient, hdiv, hmod]

/-! ### Double precision numbers among the rational ones -/

/-- The value of some finite number. -/
def IsDouble (v : ℚ) : Prop := ∃ s, ∃ r : Fin (2047 * 2 ^ 52), rational s r = v

/-- A finite number is the nearest one to its value. -/
theorem nearest_rational (s : Bool) (r : Fin (2047 * 2 ^ 52)) : Nearest (rational s r) (.finite s r) := by
  refine ⟨s, units r, unitsPerOne, unitsPerOne_pos, rational_eq s r, ?_⟩
  have hU : (unitsPerOne : ℚ) ≠ 0 := Number.unitsPerOne_ne_zero
  have hrank : nearestRank (units r * unitsPerOne) unitsPerOne = r :=
    nearestRank_of_nearOne nearOne_one unitsPerOne_pos (by rw [Nat.cast_mul, mul_div_cancel_right₀ _ hU, one_mul])
  rw [ofRatio, ofUnits, hrank, ofRank, dif_pos r.isLt]

theorem Nearest.le {v w : ℚ} {s : Bool} {q : Fin (2047 * 2 ^ 52)} (h : Nearest v (.finite s q)) (hw : IsDouble w)
    (hle : v ≤ w) : rational s q ≤ w := by
  obtain ⟨t, r, rfl⟩ := hw
  exact h.mono (nearest_rational t r) hle

theorem Nearest.ge {v w : ℚ} {s : Bool} {q : Fin (2047 * 2 ^ 52)} (h : Nearest v (.finite s q)) (hw : IsDouble w)
    (hle : w ≤ v) : w ≤ rational s q := by
  obtain ⟨t, r, rfl⟩ := hw
  exact (nearest_rational t r).mono h hle

/-- A bound that is off by a factor near to one still holds. -/
theorem Nearest.ge_of_nearOne {v w c : ℚ} {s : Bool} {q : Fin (2047 * 2 ^ 52)} (h : Nearest v (.finite s q))
    (hc : NearOne c) (hw : IsDouble w) (hle : c * w ≤ v) : w ≤ rational s q := by
  obtain ⟨t, r, rfl⟩ := hw
  obtain ⟨x, hx⟩ := exists_nearest (c * rational t r)
  obtain ⟨t', rfl, ht⟩ := hx.of_nearOne hc
  rw [← ht]
  exact hx.mono h hle

theorem unitsPerOne_eq {j k : Nat} (h : j + k = 1074) : unitsPerOne = 2 ^ j * 2 ^ k := by
  have hpow : unitsPerOne = 2 ^ 1074 := by decide +kernel
  rw [hpow, ← h, pow_add]

theorem nearestRank_exact_lt {m t b : Nat} (hm : m < 2 ^ 54) (ht : t < b) :
    nearestRank (m * 2 ^ t) 1 < (b + 3) * 2 ^ 52 := by
  rw [nearestRank_lt_iff b Nat.one_pos, Nat.mul_one]
  exact Nat.mul_lt_mul_of_le_of_lt (by omega) (Nat.pow_lt_pow_right Nat.one_lt_two ht) (by decide)

theorem isDouble_units (s : Bool) {m t : Nat} (hm : m < 2 ^ 53) (ht : t < 2044) :
    IsDouble (signed s ((m * 2 ^ t : Nat) / unitsPerOne)) := by
  refine ⟨s, ⟨nearestRank (m * 2 ^ t) 1, nearestRank_exact_lt (by omega) ht⟩, ?_⟩
  rw [rational_eq]
  dsimp only
  rw [units_nearestRank_exact t hm]

/-- **Fractions of a power of two** are double precision numbers up to a numerator of `2 ^ 53`. -/
theorem isDouble_dyadic {z : ℤ} (hz : z.natAbs ≤ 2 ^ 53) {j : Nat} (hj : j ≤ 1074) : IsDouble ((z : ℚ) / 2 ^ j) := by
  obtain ⟨k, hk⟩ := Nat.exists_eq_add_of_le hj
  have hshift : ∀ m t : Nat, z.natAbs * 2 ^ k = m * 2 ^ t →
      (z : ℚ) / 2 ^ j = signed (decide (z < 0)) ((m * 2 ^ t : Nat) / unitsPerOne) := by
    intro m t h
    have hpow : ((2 ^ k : Nat) : ℚ) ≠ 0 := Nat.cast_ne_zero.2 (by positivity)
    have hvalue : ((m * 2 ^ t : Nat) : ℚ) / unitsPerOne = (2 ^ j)⁻¹ * z.natAbs := by
      rw [← h, unitsPerOne_eq hk.symm, Nat.cast_mul, Nat.cast_mul, mul_div_mul_right _ _ hpow, Nat.cast_pow,
        Nat.cast_ofNat, div_eq_inv_mul]
    rw [hvalue, signed_mul, signed_natAbs, div_eq_inv_mul]
  rcases hz.eq_or_lt with heq | hlt
  · have hpow : z.natAbs * 2 ^ k = 2 ^ 52 * 2 ^ (k + 1) := by
      rw [heq, pow_succ 2 k]
      ring
    rw [hshift _ _ hpow]
    exact isDouble_units _ (by decide) (by omega)
  · rw [hshift _ _ rfl]
    exact isDouble_units _ hlt (by omega)

theorem isDouble_intCast {z : ℤ} (hz : z.natAbs ≤ 2 ^ 53) : IsDouble z := by
  simpa using isDouble_dyadic hz (Nat.zero_le 1074)

/-- **Halfway between two integers** at which halves are not to be had, the even one is taken. -/
theorem Nearest.of_half {s : Bool} {w : Nat} (hl : 2 ^ 52 ≤ w) (hu : w < 2 ^ 53) {x : Binary64}
    (h : Nearest (signed s ((2 * w + 1 : Nat) / 2)) x) :
    ∃ t r, x = .finite t r ∧ rational t r = signed s (w + w % 2 : Nat) := by
  obtain ⟨b, hb⟩ : ∃ b, b = 1073 := ⟨_, rfl⟩
  have hU : (unitsPerOne : ℚ) ≠ 0 := Number.unitsPerOne_ne_zero
  have hunits : unitsPerOne = 2 ^ (b + 1) := by rw [unitsPerOne_eq (j := b + 1) (k := 0) (by omega), pow_zero, mul_one]
  have hrank : nearestRank ((2 * w + 1) * unitsPerOne) 2 = nearestRank ((2 * w + 1) * 2 ^ b) 1 := by
    rw [hunits, pow_succ, ← mul_assoc, ← nearestRank_mul ((2 * w + 1) * 2 ^ b) 1 Nat.two_pos, Nat.one_mul]
  have hlt : nearestRank ((2 * w + 1) * unitsPerOne) 2 < 2047 * 2 ^ 52 := by
    rw [hrank]
    exact nearestRank_exact_lt (b := 2044) (by omega) (by omega)
  have hsame : Nearest (signed s ((2 * w + 1 : Nat) / 2)) (.finite s ⟨_, hlt⟩) :=
    ⟨s, 2 * w + 1, 2, Nat.two_pos, rfl, by rw [ofRatio, ofUnits, ofRank, dif_pos hlt]⟩
  have hvalue : rational s (nearestRank ((2 * w + 1) * unitsPerOne) 2) = signed s (w + w % 2 : Nat) := by
    rw [rational_eq, hrank, units_nearestRank_half b hl hu, ← hunits, Nat.cast_mul, mul_div_cancel_right₀ _ hU]
  have hfinite : |signed s ((2 * w + 1 : Nat) / 2)| < limit := by
    have hlimit : (2 : ℚ) ^ 54 < limit := by exact_mod_cast (by decide +kernel : 2 ^ 54 < limit)
    have hw : ((2 * w + 1 : Nat) : ℚ) ≤ 2 ^ 54 := by exact_mod_cast (by omega : 2 * w + 1 ≤ 2 ^ 54)
    rw [abs_signed (div_nonneg (Nat.cast_nonneg _) two_pos.le)]
    linarith
  obtain ⟨t, r, rfl⟩ := h.exists_finite hfinite
  exact ⟨t, r, rfl, le_antisymm (h.mono hsame le_rfl |>.trans_eq hvalue) (hvalue.symm.trans_le (hsame.mono h le_rfl))⟩

end Binary64

end EventPipeline
