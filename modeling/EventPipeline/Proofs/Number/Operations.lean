import EventPipeline.Proofs.Number.Nearest

/-!
# Operations as nearest values

Every operation on finite numbers gives what its exact result is rounded to: the sum, the product, the quotient, the
double precision number of an integer and the quotient of two integers. From here on a computation is followed by its
exact values alone, with `Nearest.le`, `Nearest.ge` and `Nearest.of_eq`.
-/

namespace EventPipeline

namespace Binary64

open Number (rational)

variable {s t : Bool} {a b : Fin (2047 * 2 ^ 52)}

theorem ofUnits_eq_ofRatio (s : Bool) (num den : Nat) : ofUnits s num den = ofRatio s num (den * unitsPerOne) := by
  rw [ofRatio, ofUnits, ofUnits, nearestRank_mul num den unitsPerOne_pos]

theorem nearest_ofRatio (s : Bool) (num : Nat) {den : Nat} (hd : 0 < den) :
    Nearest (signed s (num / den)) (ofRatio s num den) :=
  ⟨s, num, den, hd, rfl, rfl⟩

theorem nearest_zero (s : Bool) : Nearest 0 (zero s) := by
  have h := nearest_rational s ⟨0, by decide⟩
  rwa [rational_zero] at h

theorem nearest_mul : Nearest (rational s a * rational t b) (mul (.finite s a) (.finite t b)) := by
  have h := nearest_ofRatio (s != t) (units a * units b) (Nat.mul_pos unitsPerOne_pos unitsPerOne_pos)
  rwa [← ofUnits_eq_ofRatio, Nat.cast_mul, Nat.cast_mul, ← div_mul_div_comm, signed_xor, ← rational_eq,
    ← rational_eq] at h

theorem nearest_add : Nearest (rational s a + rational t b) (add (.finite s a) (.finite t b)) := by
  rw [rational, rational, ← add_div, ← Int.cast_add, add]
  split_ifs with h
  · rw [h, Int.cast_zero, zero_div]
    exact nearest_zero _
  · generalize signedUnits s a + signedUnits t b = z
    have h := nearest_ofRatio (decide (z < 0)) z.natAbs (Nat.mul_pos Nat.one_pos unitsPerOne_pos)
    rwa [← ofUnits_eq_ofRatio, Nat.one_mul, div_eq_inv_mul, signed_mul, signed_natAbs, ← div_eq_inv_mul] at h

theorem rational_oneHalf : rational false (1022 * 2 ^ 52) = 1 / 2 := by
  have hunits : units (1022 * 2 ^ 52) * 2 = unitsPerOne := by decide +kernel
  have hcast : (units (1022 * 2 ^ 52) : ℚ) * 2 = unitsPerOne := by rw [← hunits, Nat.cast_mul, Nat.cast_ofNat]
  rw [rational_false, div_eq_div_iff Number.unitsPerOne_ne_zero two_ne_zero, one_mul, hcast]

/-- One half more than a finite number. -/
theorem nearest_add_oneHalf {s : Bool} {r : Fin (2047 * 2 ^ 52)} :
    ∃ t q, add (.finite s r) oneHalf = .finite t q ∧ Nearest (rational s r + 1 / 2) (.finite t q) := by
  obtain ⟨t, q, h⟩ := add_oneHalf_isFinite_iff.2 ⟨s, r, rfl⟩
  have hsum : Nearest (rational s r + rational false (1022 * 2 ^ 52)) (add (.finite s r) oneHalf) :=
    nearest_add (b := ⟨1022 * 2 ^ 52, by decide⟩)
  rw [rational_oneHalf, h] at hsum
  exact ⟨t, q, h, hsum⟩

theorem nearest_div (hb : b.val ≠ 0) : Nearest (rational s a / rational t b) (div (.finite s a) (.finite t b)) := by
  have hU : (unitsPerOne : ℚ) ≠ 0 := Number.unitsPerOne_ne_zero
  have h := nearest_ofRatio (s != t) (units a) (units_pos hb)
  have hvalue : signed (s != t) ((units a : ℚ) / units b) = rational s a / rational t b := by
    rw [← div_div_div_cancel_right₀ hU, rational_eq, rational_eq]
    generalize (units a : ℚ) / unitsPerOne = v
    generalize (units b : ℚ) / unitsPerOne = w
    cases s <;> cases t <;> simp [signed, neg_div, div_neg]
  rwa [hvalue] at h

theorem nearest_ofInt (n : Int) : Nearest n (ofRatio (n < 0) n.natAbs 1) := by
  have h := nearest_ofRatio (decide (n < 0)) n.natAbs Nat.one_pos
  rwa [Nat.cast_one, div_one, signed_natAbs] at h

/-- A power of ten with a negative exponent. -/
theorem ofDecimal_negSucc {e : Nat} (he : e < 400) :
    ofDecimal false 1 (Int.negSucc e) = ofRatio false 1 (10 ^ (e + 1)) := by
  rw [ofDecimal, if_neg (by decide), if_neg (by omega), if_neg (by omega)]

/-- The greatest integer that is not above a finite number is that of its value. -/
theorem floor_eq (s : Bool) (r : Nat) : floor s r = ⌊rational s r⌋ := by
  rw [floor, rational, Int.fdiv_eq_ediv_of_nonneg _ (Int.natCast_nonneg _), Rat.floor_intCast_div_natCast]

end Binary64

namespace Number

open Binary64 (Nearest IsDouble limit)

theorem nearest_toFloat {n : Int} {x : Binary64} (h : (Number.int n).toFloat = .ok x) : Nearest n x := by
  rw [toFloat, Binary64.ofInt?] at h
  cases hx : (Binary64.ofRatio (n < 0) n.natAbs 1).finite? with
  | none => simp [hx] at h
  | some y =>
    rw [hx] at h
    cases h
    rw [← (Binary64.finite?_eq_some_iff.1 hx).1]
    exact Binary64.nearest_ofInt n

theorem nearest_quotient {m n : Int} (hn : n ≠ 0) {x : Binary64} (h : div (.int m) (.int n) = .ok x) :
    Nearest (m / n) x := by
  rw [div, quotient] at h
  cases hx : (Binary64.ofRatio ((m < 0) != (n < 0)) m.natAbs n.natAbs).finite? with
  | none => simp [hx] at h
  | some y =>
    rw [hx] at h
    cases h
    have h := Binary64.nearest_ofRatio ((m < 0) != (n < 0)) m.natAbs (Int.natAbs_pos.2 hn)
    have hvalue : Binary64.signed ((m < 0) != (n < 0)) ((m.natAbs : ℚ) / n.natAbs) = m / n := by
      conv_rhs => rw [← Binary64.signed_natAbs m, ← Binary64.signed_natAbs n]
      cases decide (m < 0) <;> cases decide (n < 0) <;> simp [Binary64.signed, neg_div, div_neg]
    rwa [hvalue, (Binary64.finite?_eq_some_iff.1 hx).1] at h

end Number

end EventPipeline
