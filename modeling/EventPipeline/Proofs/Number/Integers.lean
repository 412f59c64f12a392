import EventPipeline.Proofs.Number.Operations
import Mathlib.Data.Nat.Factorization.Basic

/-!
# Integers in double precision

The double precision numbers among the integers are those below the limit with at most 53 binary digits in front of
their trailing zeros (`isDouble_intCast_iff`). Any other integer is rounded to one with another value
(`equals_of_nearest`), whereas what is left of a double precision number without the digits after the point is one again
(`isDouble_truncated`).
-/

namespace EventPipeline

namespace Binary64

open Number (rational)

/-- The double precision numbers among the integers are those below the limit with at most 53 binary digits in front of
their trailing zeros. -/
theorem isDouble_intCast_iff {n : Int} :
    IsDouble n ↔ n.natAbs < limit ∧ ∃ m k : Nat, m < 2 ^ 53 ∧ n.natAbs = m * 2 ^ k := by
  obtain ⟨b, hb⟩ : ∃ b, b = 1074 := ⟨_, rfl⟩
  have hU : unitsPerOne = 2 ^ b := by rw [unitsPerOne_eq (j := b) (k := 0) (by omega), pow_zero, Nat.mul_one]
  constructor
  · rintro ⟨s, r, h⟩
    have hunits : units r = n.natAbs * unitsPerOne := by
      rw [← natAbs_signedUnits s r, Number.rational_eq_intCast.1 h, Int.natAbs_mul, Int.natAbs_natCast]
    constructor
    · have hlt := units_add_lt r (k := 0) (by positivity)
      rw [Nat.add_zero, hunits] at hlt
      exact Nat.lt_of_mul_lt_mul_right hlt
    · rw [units, hU] at hunits
      rcases Nat.le_total b (scale r) with hle | hle
      · obtain ⟨k, hk⟩ := Nat.exists_eq_add_of_le' hle
        rw [hk, pow_add, ← Nat.mul_assoc] at hunits
        exact ⟨significand r, k, significand_lt r, (Nat.eq_of_mul_eq_mul_right (by positivity) hunits).symm⟩
      · -- the point stands within the significand, and what follows it is zero
        obtain ⟨k, hk⟩ := Nat.exists_eq_add_of_le' hle
        rw [hk, pow_add, ← Nat.mul_assoc] at hunits
        have hsig := Nat.eq_of_mul_eq_mul_right (by positivity) hunits
        refine ⟨n.natAbs, 0, lt_of_le_of_lt ?_ (significand_lt r), by simp⟩
        rw [hsig]
        exact Nat.le_mul_of_pos_right _ (by positivity)
  · rintro ⟨hlimit, m, k, hm, hn⟩
    have hrank : nearestRank (m * 2 ^ (k + b)) 1 < (2044 + 3) * 2 ^ 52 := by
      rw [nearestRank_lt_iff 2044 Nat.one_pos, Nat.mul_one, ← limit_units, pow_add, ← Nat.mul_assoc, ← hn, hU]
      exact Nat.mul_lt_mul_of_pos_right hlimit (by positivity)
    refine ⟨decide (n < 0), ⟨_, hrank⟩, ?_⟩
    rw [rational_eq, units_nearestRank_exact _ hm, pow_add, ← Nat.mul_assoc, ← hn, ← hU, Nat.cast_mul,
      mul_div_cancel_right₀ _ Number.unitsPerOne_ne_zero, signed_natAbs]

theorem even_of_isDouble {z : Int} (hz : IsDouble z) (h : 2 ^ 53 ≤ z.natAbs) : z % 2 = 0 := by
  obtain ⟨-, m, k, hm, hn⟩ := isDouble_intCast_iff.1 hz
  rcases k with _ | k
  · omega
  · rw [pow_succ, ← mul_assoc] at hn
    omega

/-- An integer is a double precision number if a multiple of it is one. -/
theorem isDouble_of_mul {n m : Int} (hm : m ≠ 0) (h : IsDouble (n * m : Int)) : IsDouble n := by
  obtain ⟨hlimit, p, k, hp, hmul⟩ := isDouble_intCast_iff.1 h
  rw [Int.natAbs_mul] at hlimit hmul
  have hm := Int.natAbs_pos.2 hm
  refine isDouble_intCast_iff.2 ⟨lt_of_le_of_lt (Nat.le_mul_of_pos_right _ hm) hlimit, ?_⟩
  rcases Nat.eq_zero_or_pos n.natAbs with hn | hn
  · exact ⟨0, 0, by decide, hn⟩
  obtain ⟨j, odd, hodd, hsplit⟩ := Nat.exists_eq_two_pow_mul_odd hn.ne'
  have hdvd : odd ∣ p := by
    refine (Nat.Coprime.pow_right k (Nat.coprime_two_right.2 hodd)).dvd_of_dvd_mul_right ?_
    rw [← hmul, hsplit]
    exact Dvd.dvd.mul_right (Dvd.intro_left _ rfl) _
  have hpos : 0 < p := by
    refine Nat.pos_of_ne_zero fun h0 => (Nat.mul_pos hn hm).ne' ?_
    rw [hmul, h0, Nat.zero_mul]
  exact ⟨odd, j, lt_of_le_of_lt (Nat.le_of_dvd hpos hdvd) hp, by rw [hsplit, mul_comm]⟩

/-- What an integer is rounded to has its value if the integer is a double precision number. -/
theorem Nearest.value_eq_iff {n : Int} {x : Binary64} (h : Nearest n x) :
    Number.value? (.float x) = Number.value? (.int n) ↔ IsDouble n := by
  constructor
  · intro hx
    cases x with
    | nan => cases hx
    | infinite s => cases s <;> cases hx
    | finite s r =>
      simp only [Number.value?, Option.some.injEq, WithBot.coe_inj, WithTop.coe_inj] at hx
      exact ⟨s, r, hx⟩
  · rintro ⟨s, r, hr⟩
    obtain ⟨t, rfl, ht⟩ := h.of_eq hr.symm
    simp only [Number.value?, ht]

theorem signedUnits_of_quotient {s : Bool} {r q u : Nat} {k : Int} (h : (if s then -(q : Int) else q) = k)
    (hunits : q * u = units r) : signedUnits s r = k * (u : Nat) := by
  rw [← h, signedUnits, ← hunits, Nat.cast_mul]
  cases s
  · rfl
  · exact (Int.neg_mul _ _).symm

/-- What is left of a finite number without the digits after the point. -/
def truncated (s : Bool) (r : Nat) : Int :=
  let magnitude : Int := (units r / unitsPerOne : Nat)
  if s then -magnitude else magnitude

theorem truncated_of_units {s : Bool} {r u : Nat} {k : Int} (hu : 0 < u) (h : signedUnits s r = k * u) :
    (if s then -((units r / u : Nat) : Int) else (units r / u : Nat)) = k := by
  have hunits : units r = k.natAbs * u := by
    rw [← natAbs_signedUnits s r, h, Int.natAbs_mul, Int.natAbs_natCast]
  rw [hunits, Nat.mul_div_cancel _ hu]
  rw [signedUnits, hunits] at h
  have hu' : (0 : Int) < u := by exact_mod_cast hu
  push_cast at h
  rw [← neg_mul] at h
  split_ifs at h ⊢
  · exact mul_right_cancel₀ hu'.ne' (by push_cast; exact h)
  · exact mul_right_cancel₀ hu'.ne' (by push_cast; exact h)

theorem truncated_eq {s : Bool} {r : Nat} {k : Int} (h : rational s r = k) : truncated s r = k :=
  truncated_of_units unitsPerOne_pos (Number.rational_eq_intCast.1 h)

/-- A double precision number stays one without the digits after the point. -/
theorem isDouble_truncated (s : Bool) (r : Fin (2047 * 2 ^ 52)) : IsDouble (truncated s r) := by
  obtain ⟨b, hb⟩ : ∃ b, b = 1074 := ⟨_, rfl⟩
  have hU : unitsPerOne = 2 ^ b := by rw [unitsPerOne_eq (j := b) (k := 0) (by omega), pow_zero, Nat.mul_one]
  rcases Nat.le_total b (scale r) with hle | hle
  · -- there are no digits after the point
    obtain ⟨k, hk⟩ := Nat.exists_eq_add_of_le' hle
    have hunits : significand r * 2 ^ k * unitsPerOne = units r := by
      rw [units, hU, hk, pow_add, mul_assoc]
    have hvalue := Number.rational_eq_intCast.2 (signedUnits_of_quotient (s := s) rfl hunits)
    rw [truncated_eq hvalue]
    exact ⟨s, r, hvalue⟩
  · have hsmall : units r / unitsPerOne < 2 ^ 53 := by
      refine lt_of_le_of_lt (Nat.div_le_of_le_mul ?_) (significand_lt r)
      rw [units, hU, mul_comm]
      exact Nat.mul_le_mul_right _ (Nat.pow_le_pow_right Nat.two_pos hle)
    refine isDouble_intCast ?_
    unfold truncated
    dsimp only
    generalize units r / unitsPerOne = q at *
    split_ifs <;> omega

end Binary64

namespace Number

open Binary64 (IsDouble Nearest limit)

/-- An integral number has the value of its integer. -/
theorem value?_integer {x : Binary64} {k : Int} (h : x.integer? = some k) : value? (.float x) = value? (.int k) := by
  cases x with
  | nan => cases h
  | infinite s => cases h
  | finite s r =>
    by_cases hunits : Binary64.units r % Binary64.unitsPerOne = 0
    · rw [Binary64.integer?, if_pos hunits, Option.some_inj] at h
      have hvalue := Binary64.signedUnits_of_quotient h (Nat.div_mul_cancel (Nat.dvd_of_mod_eq_zero hunits))
      simp only [value?, rational_eq_intCast.2 hvalue]
    · rw [Binary64.integer?, if_neg hunits] at h
      cases h

theorem value?_integral (a : Number) : a.integral.value? = a.value? := by
  rw [integral]
  cases h : a.integer? with
  | none => rfl
  | some k =>
    cases a with
    | int n =>
      cases h
      rfl
    | float x => exact (value?_integer h).symm

/-- What an integer is rounded to equals it if the integer is a double precision number. -/
theorem equals_of_nearest {n : Int} {x : Binary64} (h : Nearest n x) :
    (float x).equals (int n) = true ↔ IsDouble n := by
  rw [equals_comm, equals_iff_value (by simp [value?]), eq_comm]
  exact h.value_eq_iff

theorem integral_equals_of_nearest {n : Int} {x : Binary64} (h : Nearest n x) :
    (float x).integral.equals (int n) = true ↔ IsDouble n := by
  rw [equals_comm, equals_iff_value (by simp [value?]), value?_integral, eq_comm]
  exact h.value_eq_iff

/-- The double precision number of an integer that is one. -/
theorem exists_toFloat_of_isDouble {n : Int} (h : IsDouble n) :
    ∃ s r, (Number.int n).toFloat = .ok (.finite s r) ∧ rational s r = n := by
  obtain ⟨x, hx⟩ := (toFloat_ok_iff (a := .int n)).2 (Binary64.isDouble_intCast_iff.1 h).1
  obtain ⟨t, r, hr⟩ := h
  obtain ⟨s, rfl, hs⟩ := (nearest_toFloat hx).of_eq hr.symm
  exact ⟨s, r, hx, hs⟩

end Number

end EventPipeline
