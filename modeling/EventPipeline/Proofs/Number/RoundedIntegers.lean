import EventPipeline.Proofs.Fallible
import EventPipeline.Proofs.Number.Integers

/-!
# Rounding integers to digits

A number is rounded to digits in four steps, each of which is rounded to double precision itself: it is scaled by a
power of ten, raised by one half and cut down to an integer, scaled back, and cut once more if there are no digits after
the point. An integer that can be scaled exactly comes out as it is (`round_zero_iff`, `round_digits`), for a half that
finds no room is rounded to the even integer (`floor_add_half_int`).

In front of the point the power is the inverse of `10 ^ k`, which no double precision number is. For most `k` the number
that stands for it is off by a factor so near to one that neither scaling moves a number past a half or past a multiple
(`round_multiple`); from the sixteenth power on nothing is left of an integer (`round_vanishes`). For four powers the
factor is too far from one, and an integer can be lost in either scaling (`round_not_nearest`).
-/

namespace EventPipeline

namespace Binary64

open Number (rational)

/-- Beyond `2 ^ 53` one half is a factor near to one. -/
theorem nearOne_half {z : Int} (h : 2 ^ 54 < (2 * z + 1).natAbs) : NearOne (1 + 1 / (2 * z)) := by
  have hbounds : -(1 / 2 ^ 54) < (1 : ℚ) / (2 * z) ∧ (1 : ℚ) / (2 * z) ≤ 1 / 2 ^ 54 := by
    rcases lt_or_ge z 0 with hneg | hneg
    · have hz : (2 : ℚ) ^ 54 < -(2 * z) := by exact_mod_cast (by omega : 2 ^ 54 < -(2 * z))
      have hinv := one_div_lt_one_div_of_lt (by positivity) hz
      rw [div_neg] at hinv
      have hpos : (0 : ℚ) ≤ -(1 / (2 * z)) := by
        rw [← div_neg]
        exact div_nonneg one_pos.le (le_trans (by positivity) hz.le)
      constructor <;> linarith
    · have hz : (2 : ℚ) ^ 54 ≤ 2 * z := by exact_mod_cast (by omega : 2 ^ 54 ≤ 2 * z)
      have hinv := one_div_le_one_div_of_le (by positivity) hz
      have hpos : (0 : ℚ) ≤ 1 / (2 * z) := div_nonneg one_pos.le (le_trans (by positivity) hz)
      constructor <;> linarith
  constructor <;> linarith [hbounds.1, hbounds.2]

/-- **One half more than an integer**, cut down to an integer again: the integer itself as long as halves are to be had,
an even one from then on. -/
theorem floor_add_half_int {z : Int} (hz : IsDouble z) {s : Bool} {r : Fin (2047 * 2 ^ 52)}
    (h : Nearest (z + 1 / 2) (.finite s r)) : floor s r = if z.natAbs < 2 ^ 52 then z else z + z % 2 := by
  obtain ⟨w, hw⟩ : ∃ w, (2 * z + 1).natAbs = 2 * w + 1 := ⟨(2 * z + 1).natAbs / 2, by omega⟩
  have hvalue : (z : ℚ) + 1 / 2 = signed (decide (2 * z + 1 < 0)) ((2 * w + 1 : Nat) / 2) := by
    rw [← hw, div_eq_inv_mul ((2 * z + 1).natAbs : ℚ), signed_mul, signed_natAbs]
    push_cast
    ring
  rw [floor_eq, Int.floor_eq_iff]
  rcases Nat.lt_or_ge w (2 ^ 52) with hsmall | hlarge
  · have hdouble : IsDouble (((2 * z + 1 : Int) : ℚ) / 2 ^ 1) := isDouble_dyadic (by omega) (by decide)
    have heq : ((2 * z + 1 : Int) : ℚ) / 2 ^ 1 = z + 1 / 2 := by
      push_cast
      ring
    rw [heq] at hdouble
    have hresult : rational s r = z + 1 / 2 := le_antisymm (h.le hdouble le_rfl) (h.ge hdouble le_rfl)
    have hz' : (if z.natAbs < 2 ^ 52 then z else z + z % 2) = z := by
      split_ifs <;> omega
    rw [hresult, hz']
    constructor <;> linarith
  · have hresult : rational s r = (z + z % 2 : Int) := by
      rcases Nat.lt_or_ge w (2 ^ 53) with hhalf | hwhole
      · rw [hvalue] at h
        obtain ⟨t, q, heq, hq⟩ := h.of_half hlarge hhalf
        cases heq
        rw [hq]
        rcases lt_or_ge (2 * z + 1) 0 with hneg | hneg
        · have hz' : -((w + w % 2 : Nat) : Int) = z + z % 2 := by omega
          rw [decide_eq_true hneg, signed, if_pos rfl, ← hz', Int.cast_neg, Int.cast_natCast]
        · have hz' : ((w + w % 2 : Nat) : Int) = z + z % 2 := by omega
          rw [decide_eq_false (not_lt.2 hneg), signed, if_neg Bool.false_ne_true, ← hz', Int.cast_natCast]
      · have heven := even_of_isDouble hz (by omega)
        obtain ⟨t, q, hq⟩ := hz
        have hz0 : (z : ℚ) ≠ 0 := Int.cast_ne_zero.2 (by omega)
        have hsplit : (z : ℚ) + 1 / 2 = (1 + 1 / (2 * z)) * rational t q := by
          rw [hq]
          field_simp
        rw [hsplit] at h
        obtain ⟨t', heq, hsame⟩ := h.of_nearOne (nearOne_half (by omega))
        cases heq
        rw [hsame, hq, heven, add_zero]
    have hz' : (if z.natAbs < 2 ^ 52 then z else z + z % 2) = z + z % 2 := if_neg (by omega)
    rw [hresult, hz']
    constructor <;> linarith

end Binary64

namespace Number

open Binary64 (IsDouble NearOne Nearest limit nearestRank truncated units unitsPerOne)

variable {a scaled : Number} {n whole k d : Int} {s : Bool} {r : Fin (2047 * 2 ^ 52)}

/-- **The steps of rounding** to no digit after the point: scaled, raised by one half and cut down, scaled back and cut
once more. -/
theorem round_eq_int_iff (hd : d ≤ 0) : a.round d = .ok (.int k) ↔ ∃ scaled whole s r,
    a.mul (powerOfTen d) = .ok scaled ∧ (scaled.add half >>= floor) = .ok whole ∧
      div (.int whole) (powerOfTen d) = .ok (.finite s r) ∧ truncated s r = k := by
  constructor
  · intro h
    obtain ⟨scaled, hscaled, h⟩ := ok_of_bind_ok h
    obtain ⟨raised, hraised, h⟩ := ok_of_bind_ok h
    obtain ⟨whole, hwhole, h⟩ := ok_of_bind_ok h
    obtain ⟨x, hx, h⟩ := ok_of_bind_ok h
    rw [if_pos hd] at h
    cases x with
    | nan => cases h
    | infinite s => cases h
    | finite s r =>
      cases h
      refine ⟨scaled, whole, s, r, hscaled, ?_, hx, rfl⟩
      rw [hraised]
      exact hwhole
  · rintro ⟨scaled, whole, s, r, hscaled, hwhole, hdiv, rfl⟩
    obtain ⟨raised, hraised, hwhole⟩ := ok_of_bind_ok hwhole
    unfold round
    simp only [hscaled, hraised, hwhole, hdiv, bind, Except.bind]
    rw [if_pos hd]
    rfl

theorem round_eq_float (hd : 0 < d) {x : Binary64} (hscaled : a.mul (powerOfTen d) = .ok scaled)
    (hwhole : (scaled.add half >>= floor) = .ok whole) (hdiv : div (.int whole) (powerOfTen d) = .ok x) :
    a.round d = .ok (.float x) := by
  obtain ⟨raised, hraised, hwhole⟩ := ok_of_bind_ok hwhole
  unfold round
  simp only [hscaled, hraised, hwhole, hdiv, bind, Except.bind]
  rw [if_neg (not_le.2 hd)]
  rfl

/-- A number without digits after the point is a double precision number, whatever it was rounded from. -/
theorem isDouble_of_round (hd : d ≤ 0) (h : a.round d = .ok (.int k)) : IsDouble k := by
  obtain ⟨_, _, s, r, -, -, -, rfl⟩ := (round_eq_int_iff hd).1 h
  exact Binary64.isDouble_truncated s r

/-! ### To digits after the point -/

/-- An integer that is raised by one half and cut down. -/
def raised (n : Int) : Int := if n.natAbs < 2 ^ 52 then n else n + n % 2

theorem add_half_floor (h : IsDouble n) : ((Number.int n).add half >>= floor) = .ok (raised n) := by
  obtain ⟨s, r, hx, hr⟩ := exists_toFloat_of_isDouble h
  obtain ⟨t, q, hsum, hnearest⟩ := Binary64.nearest_add_oneHalf (s := s) (r := r)
  rw [hr] at hnearest
  rw [add_half hx, hsum, raised, ← Binary64.floor_add_half_int h hnearest]
  rfl

theorem isDouble_raised (h : IsDouble n) : IsDouble (raised n) := by
  rcases Nat.lt_or_ge n.natAbs (2 ^ 53) with hsmall | hlarge
  · refine Binary64.isDouble_intCast ?_
    unfold raised
    split_ifs <;> omega
  · have heven := Binary64.even_of_isDouble h hlarge
    have hraised : raised n = n := by
      unfold raised
      split_ifs <;> omega
    rwa [hraised]

/-- The quotient by a power of ten that is an integer. -/
theorem div_powerOfTen_nearest (h : IsDouble whole) (e : Nat) :
    ∃ x, div (.int whole) (powerOfTen e) = .ok x ∧ Nearest (whole / 10 ^ e) x := by
  obtain ⟨x, hx, -⟩ := div_powerOfTen (Binary64.isDouble_intCast_iff.1 h).1 (Int.natCast_nonneg e)
  have hten : powerOfTen e = .int (10 ^ e) := rfl
  have hnearest := nearest_quotient (n := 10 ^ e) (by positivity) hx
  rw [Int.cast_pow, Int.cast_ofNat] at hnearest
  exact ⟨x, hx, hnearest⟩

/-- **Without digits**, an integer is rounded to itself exactly if it is a double precision number that halves can be
added to, or an even one. -/
theorem round_zero_iff : (Number.int n).round 0 = .ok (.int n) ↔ IsDouble n ∧ (n.natAbs < 2 ^ 52 ∨ n % 2 = 0) := by
  have hscale : (Number.int n).mul (powerOfTen 0) = .ok (.int n) := by
    change Except.ok (int (n * 1)) = Except.ok (int n)
    rw [mul_one]
  have hback : ∀ {x}, IsDouble n → Nearest (raised n / 10 ^ 0) x →
      ∃ s r, x = .finite s r ∧ truncated s r = raised n := by
    intro x h hx
    obtain ⟨t, r, hr⟩ := isDouble_raised h
    obtain ⟨s, rfl, hs⟩ := hx.of_eq (s := t) (r := r) (by rw [hr, pow_zero, div_one])
    rw [pow_zero, div_one] at hs
    exact ⟨s, r, rfl, Binary64.truncated_eq hs⟩
  have hfixed : raised n = n ↔ n.natAbs < 2 ^ 52 ∨ n % 2 = 0 := by
    unfold raised
    split_ifs <;> omega
  constructor
  · intro h
    have hdouble := isDouble_of_round le_rfl h
    obtain ⟨scaled, whole, s, r, hmul, hwhole, hdiv, htruncated⟩ := (round_eq_int_iff le_rfl).1 h
    rw [hscale] at hmul
    cases hmul
    rw [add_half_floor hdouble] at hwhole
    cases hwhole
    obtain ⟨x, hx, hnearest⟩ := div_powerOfTen_nearest (isDouble_raised hdouble) 0
    obtain ⟨t, q, rfl, hq⟩ := hback hdouble hnearest
    have hsame : Binary64.finite t q = .finite s r := Except.ok.inj (hx.symm.trans hdiv)
    cases hsame
    exact ⟨hdouble, hfixed.1 (hq.symm.trans htruncated)⟩
  · rintro ⟨hdouble, hn⟩
    obtain ⟨x, hx, hnearest⟩ := div_powerOfTen_nearest (isDouble_raised hdouble) 0
    obtain ⟨t, q, rfl, hq⟩ := hback hdouble hnearest
    exact (round_eq_int_iff le_rfl).2 ⟨_, _, t, q, hscale, add_half_floor hdouble, hx, hq.trans (hfixed.2 hn)⟩

/-- **To digits after the point** an integer is rounded to itself if it can be scaled without an error. -/
theorem round_digits {e : Nat} (he : 0 < e) (h : IsDouble (n * 10 ^ e : Int)) :
    ∃ x, (Number.int n).round e = .ok (.float x) ∧ (float x).equals (int n) = true := by
  have heven : (n * 10 ^ e : Int) % 2 = 0 := by
    obtain ⟨j, rfl⟩ := Nat.exists_eq_add_one_of_ne_zero he.ne'
    rw [pow_succ, ← mul_assoc]
    omega
  have hfixed : raised (n * 10 ^ e) = n * 10 ^ e := by
    unfold raised
    split_ifs <;> omega
  obtain ⟨x, hx, hnearest⟩ := div_powerOfTen_nearest h e
  have hfloor := add_half_floor h
  rw [hfixed] at hfloor
  refine ⟨x, round_eq_float (by exact_mod_cast he) rfl hfloor hx, ?_⟩
  rw [Int.cast_mul, Int.cast_pow, Int.cast_ofNat, mul_div_cancel_right₀ _ (by positivity)] at hnearest
  exact (equals_of_nearest hnearest).2 (Binary64.isDouble_of_mul (by positivity) h)

/-! ### To a power of ten -/

section Negative

variable {e : Nat} {f : Fin (2047 * 2 ^ 52)}

/-- **The steps in front of the point.** What is known of the scaled integer decides what it is rounded to. -/
theorem round_negSucc (whole : Int) (hf : powerOfTen (Int.negSucc e) = .float (.finite false f)) (hf0 : f.val ≠ 0)
    (hn : IsDouble n) (hlimit : |n * rational false f| < limit) (low high : ℚ)
    (hscaled : ∀ {s q}, Nearest (n * rational false f) (.finite s q) → low ≤ rational s q ∧ rational s q ≤ high)
    (hlow : IsDouble (low + 1 / 2)) (hhigh : IsDouble (high + 1 / 2)) (hwhole : IsDouble whole)
    (hle : whole ≤ low + 1 / 2) (hlt : high + 1 / 2 < whole + 1)
    (hback : ∀ {x}, Nearest (whole / rational false f) x → ∃ s r, x = .finite s r ∧ rational s r = k) :
    (int n).round (Int.negSucc e) = .ok (.int k) := by
  obtain ⟨s, a, ha, hvalue⟩ := exists_toFloat_of_isDouble hn
  have hmul := Binary64.nearest_mul (s := s) (a := a) (t := false) (b := f)
  rw [hvalue] at hmul
  obtain ⟨t, q, hq⟩ := hmul.exists_finite hlimit
  obtain ⟨hq₁, hq₂⟩ := hscaled (hq ▸ hmul)
  have hfirst : (int n).mul (powerOfTen (Int.negSucc e)) = .ok (.float (.finite t q)) := by
    rw [hf, mul, combine, ha, ← hq]
    · rfl
    · simp
  obtain ⟨t', q', hsum, hnearest⟩ := Binary64.nearest_add_oneHalf (s := t) (r := q)
  have hfloor : ((Number.float (.finite t q)).add half >>= floor) = .ok whole := by
    rw [add_half rfl, hsum]
    have hlow' := hnearest.ge hlow (by linarith)
    have hhigh' := hnearest.le hhigh (by linarith)
    have hvalue' : Binary64.floor t' q' = whole := by
      rw [Binary64.floor_eq, Int.floor_eq_iff]
      exact ⟨le_trans hle hlow', lt_of_le_of_lt hhigh' hlt⟩
    exact congrArg Except.ok hvalue'
  obtain ⟨s', b, hb, hwvalue⟩ := exists_toFloat_of_isDouble hwhole
  have hdiv := Binary64.nearest_div (s := s') (a := b) (t := false) hf0
  rw [hwvalue] at hdiv
  obtain ⟨u, r, hr, hk⟩ := hback hdiv
  have hlast : div (.int whole) (powerOfTen (Int.negSucc e)) = .ok (.finite u r) := by
    have hzero : (Binary64.finite false f).isZero = false := beq_false_of_ne hf0
    rw [hf, div, hb, ← hr]
    · simp only [bind, Except.bind, toFloat, hzero, Bool.false_eq_true, if_false]
      rfl
    · simp
  exact (round_eq_int_iff (by omega)).2 ⟨_, _, u, r, hfirst, hfloor, hlast, Binary64.truncated_eq hk⟩

/-- The power of ten that an integer is scaled by. -/
theorem exists_powerOfTen (he : 10 ^ (e + 1) < limit) :
    ∃ f : Fin (2047 * 2 ^ 52), powerOfTen (Int.negSucc e) = .float (.finite false f) ∧
      f.val = nearestRank unitsPerOne (10 ^ (e + 1)) ∧ Nearest (1 / 10 ^ (e + 1)) (.finite false f) ∧
      0 < rational false f ∧ rational false f ≤ 1 := by
  have hsmall : e < 400 := by
    by_contra hlarge
    obtain ⟨j, hj⟩ : ∃ j, j = 400 := ⟨_, rfl⟩
    have hpow : 10 ^ j ≤ 10 ^ (e + 1) := Nat.pow_le_pow_right (by decide) (by omega)
    have hlimit : limit ≤ 10 ^ j := by
      rw [hj]
      decide +kernel
    exact absurd (lt_of_le_of_lt (le_trans hlimit hpow) he) (lt_irrefl limit)
  have hten : (0 : ℚ) < 10 ^ (e + 1) := by positivity
  have hnearest := Binary64.nearest_ofRatio false 1 (by positivity : 0 < 10 ^ (e + 1))
  rw [Binary64.signed, if_neg Bool.false_ne_true, Nat.cast_one, Nat.cast_pow, Nat.cast_ofNat] at hnearest
  have hone : (1 : ℚ) / 10 ^ (e + 1) ≤ 1 := (div_le_one hten).2 (one_le_pow₀ (by norm_num))
  have hlimit : |(1 : ℚ) / 10 ^ (e + 1)| < limit := by
    have hlimit : (1 : ℚ) < limit := by exact_mod_cast (by decide +kernel : 1 < limit)
    rw [abs_of_pos (one_div_pos.2 hten)]
    exact lt_of_le_of_lt hone hlimit
  obtain ⟨s, f, hf⟩ := hnearest.exists_finite hlimit
  obtain ⟨rfl, hrank⟩ := Binary64.eq_of_ofRatio hf.symm
  rw [Nat.one_mul] at hrank
  rw [hf] at hnearest
  have hdouble : IsDouble 1 := by simpa using Binary64.isDouble_intCast (z := 1) (by decide)
  refine ⟨f, by rw [powerOfTen, Binary64.ofDecimal_negSucc hsmall, hf], hrank, hnearest, ?_, hnearest.le hdouble hone⟩
  -- the power is not below the least number
  obtain ⟨j, hj⟩ : ∃ j, j = 1074 := ⟨_, rfl⟩
  have hleast : IsDouble (1 / 2 ^ j) := by simpa using Binary64.isDouble_dyadic (z := 1) (by decide) (j := j) hj.le
  have hpow : (10 : ℚ) ^ (e + 1) ≤ 2 ^ j := by
    have hlimit : limit ≤ 2 ^ j := by
      rw [hj]
      decide +kernel
    exact_mod_cast le_trans he.le hlimit
  exact lt_of_lt_of_le (by positivity) (hnearest.ge hleast (one_div_le_one_div_of_le hten hpow))

/-- The multiple of `p` that is nearest to `n`; of two that are as near it is the greater one. -/
def NearestMultiple (p n r : Int) : Prop :=
  p ∣ r ∧ ∀ q, p ∣ q → (n - r).natAbs < (n - q).natAbs ∨ (n - r).natAbs = (n - q).natAbs ∧ q ≤ r

/-- What is no farther off than one half of `p` is nearest. -/
theorem nearestMultiple_of_bounds {p m : Int} (hp : 0 < p) (hlow : (2 * m - 1) * p ≤ 2 * n)
    (hhigh : 2 * n < (2 * m + 1) * p) : NearestMultiple p n (m * p) := by
  refine ⟨Dvd.intro_left _ rfl, ?_⟩
  rintro _ ⟨j, rfl⟩
  have hbounds : 2 * (m * p) - p ≤ 2 * n ∧ 2 * n < 2 * (m * p) + p := by
    constructor <;> linarith
  rcases lt_trichotomy j m with h | rfl | h
  · have hj : p * (j + 1) ≤ p * m := mul_le_mul_of_nonneg_left h hp.le
    rw [mul_add_one, mul_comm p m] at hj
    omega
  · exact .inr ⟨by rw [mul_comm], by rw [mul_comm]⟩
  · have hj : p * (m + 1) ≤ p * j := mul_le_mul_of_nonneg_left h hp.le
    rw [mul_add_one, mul_comm p m] at hj
    omega

theorem abs_cast_le {b : Nat} (h : n.natAbs ≤ 2 ^ b) : |(n : ℚ)| ≤ 2 ^ b := by
  rw [← Int.cast_abs, Int.abs_eq_natAbs]
  exact_mod_cast h

theorem ne_zero_of_rational_pos (h : 0 < rational false f) : f.val ≠ 0 := by
  intro h0
  rw [h0, Binary64.rational_zero] at h
  exact lt_irrefl 0 h

/-- Far in front of the point nothing is left. -/
theorem round_vanishes (he : 10 ^ (e + 1) < limit) (h16 : 16 ≤ e + 1) (hn : n.natAbs ≤ 2 ^ 51) :
    (int n).round (Int.negSucc e) = .ok (.int 0) := by
  obtain ⟨f, hf, -, hnearest, hpos, -⟩ := exists_powerOfTen he
  have hfactor : rational false f ≤ 1 / 2 ^ 53 := by
    have hdouble : IsDouble (1 / 2 ^ 53) := by
      simpa using Binary64.isDouble_dyadic (z := 1) (j := 53) (by decide) (by decide)
    refine hnearest.le hdouble (one_div_le_one_div_of_le (by positivity) ?_)
    calc (2 : ℚ) ^ 53 ≤ 10 ^ 16 := by norm_num
      _ ≤ 10 ^ (e + 1) := pow_le_pow_right₀ (by norm_num) h16
  have hscaled : |n * rational false f| ≤ 1 / 4 := by
    rw [abs_mul, abs_of_pos hpos]
    calc |(n : ℚ)| * rational false f ≤ 2 ^ 51 * (1 / 2 ^ 53) :=
          mul_le_mul (abs_cast_le hn) hfactor hpos.le (by positivity)
      _ = 1 / 4 := by norm_num
  have hquarters : ∀ z : Int, z.natAbs ≤ 2 ^ 53 → IsDouble (z / 4) := fun z hz => by
    have h := Binary64.isDouble_dyadic hz (j := 2) (by decide)
    norm_num at h
    exact h
  have hlow : IsDouble (-1 / 4) := by simpa using hquarters (-1) (by decide)
  have hhigh : IsDouble (1 / 4) := by simpa using hquarters 1 (by decide)
  have hlimit : |n * rational false f| < limit := by
    have hone : (1 : ℚ) < limit := by exact_mod_cast (by decide +kernel : 1 < limit)
    linarith
  obtain ⟨h₁, h₂⟩ := abs_le.1 hscaled
  refine round_negSucc 0 hf (ne_zero_of_rational_pos hpos) (Binary64.isDouble_intCast (by omega)) hlimit
    (-1 / 4) (1 / 4) (fun h => ⟨h.ge hlow (by linarith), h.le hhigh h₂⟩) ?_ ?_
    (Binary64.isDouble_intCast (by decide)) (by norm_num) (by norm_num) fun h => ?_
  · norm_num
    exact hhigh
  · norm_num
    simpa using hquarters 3 (by decide)
  · obtain ⟨s, r, hr⟩ := Binary64.isDouble_intCast (z := 0) (by decide)
    obtain ⟨t, rfl, ht⟩ := h.of_eq (s := s) (r := r) (by rw [hr, Int.cast_zero, zero_div])
    exact ⟨t, r, rfl, by rw [ht, Int.cast_zero, zero_div]⟩

/-- A factor near to one does not lead beyond the last fraction below a half. -/
theorem mul_le_of_nearOne {c y p b h : ℚ} (hc : NearOne c) (hp : 0 < p) (hb : 3 * p < 2 * b) (hy : |y| ≤ 2 ^ 51 / p)
    (hle : y ≤ h - 1 / p) : c * y ≤ h - 1 / b := by
  have herror : (c - 1) * y ≤ 1 / 4 * (1 / p) := by
    calc (c - 1) * y ≤ |c - 1| * |y| := by rw [← abs_mul]; exact le_abs_self _
      _ ≤ 1 / 2 ^ 53 * (2 ^ 51 / p) := mul_le_mul hc.sub_one_le hy (abs_nonneg _) (by positivity)
      _ = 1 / 4 * (1 / p) := by ring
  have hgap : 1 / b ≤ 2 / 3 * (1 / p) := by
    have hb0 : 0 < b := by linarith
    rw [div_mul_div_comm, mul_one, div_le_div_iff₀ hb0 (by positivity)]
    linarith
  have hinv : 0 < 1 / p := one_div_pos.2 hp
  linarith

/-- The last fractions below a half and below one, at a scale that has room for them. -/
theorem isDouble_below {m : Int} {i : Nat} (hi : i < 1074) (hm : (m * 2 ^ (i + 1)).natAbs + 2 ^ 50 ≤ 2 ^ 53)
    (hb : (2 : Int) ^ (i + 1) ≤ 2 ^ 50) :
    IsDouble (m + 1 / 2 - 1 / 2 ^ (i + 1)) ∧ IsDouble (m + 1 / 2 - 1 / 2 ^ (i + 1) + 1 / 2) := by
  have hpow : (2 : ℚ) ^ (i + 1) ≠ 0 := by positivity
  have hhalf : (2 : Int) ^ (i + 1) = 2 * 2 ^ i := pow_succ' 2 i
  have hpos : (0 : Int) < 2 ^ i := by positivity
  constructor
  · have h := Binary64.isDouble_dyadic (z := m * 2 ^ (i + 1) + 2 ^ i - 1) (by omega) hi
    have hvalue : ((m * 2 ^ (i + 1) + 2 ^ i - 1 : Int) : ℚ) / 2 ^ (i + 1) = m + 1 / 2 - 1 / 2 ^ (i + 1) := by
      push_cast
      field_simp
      ring
    rwa [hvalue] at h
  · have h := Binary64.isDouble_dyadic (z := m * 2 ^ (i + 1) + 2 ^ (i + 1) - 1) (by omega) hi
    have hvalue : ((m * 2 ^ (i + 1) + 2 ^ (i + 1) - 1 : Int) : ℚ) / 2 ^ (i + 1) =
        m + 1 / 2 - 1 / 2 ^ (i + 1) + 1 / 2 := by
      push_cast
      field_simp
      ring
    rwa [hvalue] at h

/-- The power of two between one half of a number and the number. -/
theorem exists_scale {p : Nat} (hp : 30 ≤ p) (hsmall : p ≤ 2 ^ 50) :
    ∃ i, i < 1074 ∧ 2 ^ (i + 1) ≤ p ∧ p < 2 * 2 ^ (i + 1) := by
  have hp0 : p ≠ 0 := by omega
  have hlog : 0 < Nat.log2 p := (Nat.le_log2 hp0).2 (by omega)
  obtain ⟨i, hi⟩ := Nat.exists_eq_add_one_of_ne_zero hlog.ne'
  have hlt : Nat.log2 p < 51 := (Nat.log2_lt hp0).2 (by omega)
  refine ⟨i, by omega, hi ▸ Nat.log2_self_le hp0, ?_⟩
  rw [← pow_succ', ← hi]
  exact Nat.lt_log2_self

/-- By what factor the double precision number of the inverse of a power of ten is off. -/
def scaleError (e : Nat) : ℚ := rational false (nearestRank unitsPerOne (10 ^ (e + 1))) * 10 ^ (e + 1)

/-- **Near in front of the point** the nearest multiple of a power of ten is found if its inverse is near to one in
double precision. -/
theorem round_multiple (hlimit : 10 ^ (e + 1) < limit) (he : e < 14) (hn : n.natAbs ≤ 2 ^ 51)
    (hc : NearOne (scaleError e)) :
    ∃ r, (int n).round (Int.negSucc e) = .ok (.int r) ∧ NearestMultiple (10 ^ (e + 1)) n r := by
  obtain ⟨f, hf, hrank, -, hpos, hone⟩ := exists_powerOfTen hlimit
  rw [scaleError, ← hrank] at hc
  have hple : 10 ^ (e + 1) ≤ 10 ^ 14 := Nat.pow_le_pow_right (by decide) he
  have hpge : 10 ^ 1 ≤ 10 ^ (e + 1) := Nat.pow_le_pow_right (by decide) (by omega)
  have hpeven : 10 ^ (e + 1) % 2 = 0 := by omega
  obtain ⟨i, hi, hbelow, habove⟩ := exists_scale (p := 3 * 10 ^ (e + 1)) (by omega) (by omega)
  obtain ⟨p, hp⟩ : ∃ p, p = 10 ^ (e + 1) := ⟨_, rfl⟩
  have hpInt : (10 : Int) ^ (e + 1) = p := by rw [hp]; push_cast; rfl
  have hpRat : (10 : ℚ) ^ (e + 1) = p := by rw [hp]; push_cast; rfl
  rw [hpInt]
  rw [hpRat] at hc
  rw [← hp] at hple hpge hpeven hbelow habove
  have hp0 : (0 : ℚ) < p := by exact_mod_cast (by omega : 0 < p)
  obtain ⟨m, hlow, hhigh⟩ : ∃ m : Int, 2 * (m * p) - p ≤ 2 * n ∧ 2 * n < 2 * (m * p) + p := by
    refine ⟨(2 * n + p) / (2 * p), ?_⟩
    have h₁ := Int.ediv_mul_le (2 * n + p) (b := 2 * p) (by omega)
    have h₂ := Int.lt_ediv_add_one_mul_self (2 * n + p) (b := 2 * p) (by omega)
    generalize (2 * n + p : Int) / (2 * p) = m at *
    constructor <;> linarith
  have hscaled : (n : ℚ) * rational false f = rational false f * p * (n / p) := by
    rw [mul_assoc, mul_div_cancel₀ _ hp0.ne', mul_comm]
  refine ⟨m * p, ?_, nearestMultiple_of_bounds (by omega) (by linarith) (by linarith)⟩
  have hge : (m : ℚ) - 1 / 2 ≤ n / p := by
    have hcast : (2 : ℚ) * (m * p) - p ≤ 2 * n := by exact_mod_cast hlow
    rw [le_div_iff₀ hp0]
    linarith
  have hle : (n : ℚ) / p ≤ m + 1 / 2 - 1 / p := by
    have hcast : (2 : ℚ) * n ≤ 2 * (m * p) + p - 2 := by exact_mod_cast (by omega : 2 * n ≤ 2 * (m * p) + p - 2)
    rw [le_sub_iff_add_le, ← add_div, div_le_iff₀ hp0]
    linarith
  have hsize : |(n : ℚ) / p| ≤ 2 ^ 51 / p := by
    rw [abs_div, abs_of_pos hp0]
    exact div_le_div_of_nonneg_right (abs_cast_le hn) hp0.le
  have hscale : (3 : ℚ) * p < 2 * 2 ^ (i + 1) := by exact_mod_cast habove
  have hfraction := mul_le_of_nearOne hc hp0 hscale hsize hle
  have hmp : (m * p).natAbs = m.natAbs * p := Int.natAbs_mul m p
  obtain ⟨hhigh₁, hhigh₂⟩ := isDouble_below (m := m) hi
    (by
      rw [Int.natAbs_mul, Int.natAbs_pow]
      have hmul := Nat.mul_le_mul_left m.natAbs hbelow
      have hthree : m.natAbs * (3 * p) = 3 * (m.natAbs * p) := by ring
      have hnat : (2 : Int).natAbs = 2 := rfl
      rw [hnat]
      omega)
    (by exact_mod_cast (by omega : 2 ^ (i + 1) ≤ 2 ^ 50))
  have hmdouble : IsDouble m := by
    refine Binary64.isDouble_intCast ?_
    have hle := Nat.le_mul_of_pos_right m.natAbs (by omega : 0 < p)
    omega
  have hlowdouble : IsDouble ((m : ℚ) - 1 / 2) := by
    have hle := Nat.le_mul_of_pos_right m.natAbs (by omega : 0 < p)
    have h := Binary64.isDouble_dyadic (z := 2 * m - 1) (by omega) (j := 1) (by decide)
    have hvalue : ((2 * m - 1 : Int) : ℚ) / 2 ^ 1 = m - 1 / 2 := by
      push_cast
      ring
    rwa [hvalue] at h
  have hlimit' : |n * rational false f| < limit := by
    have hsmall : (2 : ℚ) ^ 51 < limit := by exact_mod_cast (by decide +kernel : 2 ^ 51 < limit)
    rw [abs_mul, abs_of_pos hpos]
    have hmul := mul_le_mul (abs_cast_le hn) hone hpos.le (by positivity)
    linarith
  refine round_negSucc m hf (ne_zero_of_rational_pos hpos) (Binary64.isDouble_intCast (by omega)) hlimit' (m - 1 / 2)
    (m + 1 / 2 - 1 / 2 ^ (i + 1)) (fun h => ?_) (by simpa using hmdouble) hhigh₂ hmdouble (by linarith) ?_ fun h => ?_
  · rw [hscaled] at h
    exact ⟨h.ge_of_nearOne hc hlowdouble (mul_le_mul_of_nonneg_left hge hc.pos.le), h.le hhigh₁ hfraction⟩
  · have hpow : (0 : ℚ) < 1 / 2 ^ (i + 1) := by positivity
    linarith
  · obtain ⟨s, r, hr⟩ := Binary64.isDouble_intCast (z := m * p) (by omega)
    have hback : (m : ℚ) / rational false f = (rational false f * p)⁻¹ * rational s r := by
      rw [hr, Int.cast_mul, Int.cast_natCast]
      field_simp
    rw [hback] at h
    obtain ⟨t, rfl, ht⟩ := h.of_nearOne hc.inv
    exact ⟨t, r, rfl, ht.trans hr⟩

/-- The inverses of these powers of ten are near enough to double precision numbers. -/
theorem nearOne_scaleError (he : e ∈ [0, 1, 2, 3, 5, 6, 7, 9, 11, 12, 13]) : NearOne (scaleError e) := by
  have hunits : ∀ e ∈ [0, 1, 2, 3, 5, 6, 7, 9, 11, 12, 13],
      2 ^ 54 * unitsPerOne < 2 ^ 54 * (units (nearestRank unitsPerOne (10 ^ (e + 1))) * 10 ^ (e + 1)) + unitsPerOne ∧
        2 ^ 54 * (units (nearestRank unitsPerOne (10 ^ (e + 1))) * 10 ^ (e + 1)) <
          2 ^ 54 * unitsPerOne + units (nearestRank unitsPerOne (10 ^ (e + 1))) * 10 ^ (e + 1) := by
    decide +kernel
  obtain ⟨h₁, h₂⟩ := hunits e he
  have hU : (0 : ℚ) < unitsPerOne := Nat.cast_pos.2 Binary64.unitsPerOne_pos
  have hcast : scaleError e = (units (nearestRank unitsPerOne (10 ^ (e + 1))) * 10 ^ (e + 1) : Nat) / unitsPerOne := by
    rw [scaleError, Binary64.rational_false, div_mul_eq_mul_div]
    push_cast
    rfl
  generalize units (nearestRank unitsPerOne (10 ^ (e + 1))) * 10 ^ (e + 1) = v at *
  generalize unitsPerOne = u at *
  have h₁ : (2 : ℚ) ^ 54 * u < 2 ^ 54 * v + u := by exact_mod_cast h₁
  have h₂ : (2 : ℚ) ^ 54 * v < 2 ^ 54 * u + v := by exact_mod_cast h₂
  rw [hcast]
  constructor
  · rw [lt_div_iff₀ hU]
    linarith
  · rw [div_mul_eq_mul_div, div_lt_one hU]
    linarith

/-- **In front of the point** an integer is rounded to the nearest multiple, but for four powers of ten. -/
theorem round_nearest (hlimit : 10 ^ (e + 1) < limit) (he : e ∉ [4, 8, 10, 14]) (hn : n.natAbs ≤ 2 ^ 51) :
    ∃ r, (int n).round (Int.negSucc e) = .ok (.int r) ∧ NearestMultiple (10 ^ (e + 1)) n r := by
  rcases Nat.lt_or_ge e 15 with hnear | hfar
  · have hmem : e ∈ [0, 1, 2, 3, 5, 6, 7, 9, 11, 12, 13] := by
      simp only [List.mem_cons, List.not_mem_nil, or_false] at he ⊢
      omega
    exact round_multiple hlimit (by simp only [List.mem_cons, List.not_mem_nil, or_false] at hmem; omega) hn
      (nearOne_scaleError hmem)
  · refine ⟨0, round_vanishes hlimit (by omega) hn, ?_⟩
    have hp : 10 ^ 16 ≤ 10 ^ (e + 1) := Nat.pow_le_pow_right (by decide) (by omega)
    have hpInt : (10 : Int) ^ 16 ≤ 10 ^ (e + 1) := by exact_mod_cast hp
    have h := nearestMultiple_of_bounds (n := n) (p := 10 ^ (e + 1)) (m := 0) (by omega) (by omega) (by omega)
    rwa [zero_mul] at h

/-- For these four powers an integer comes one short of the multiple, or at the smaller one of two. -/
theorem round_not_nearest (he : e ∈ [4, 8, 10, 14]) :
    ∃ n : Int, n.natAbs ≤ 2 ^ 51 ∧ ∃ r, (int n).round (Int.negSucc e) = .ok (.int r) ∧
      ¬ NearestMultiple (10 ^ (e + 1)) n r := by
  simp only [List.mem_cons, List.not_mem_nil, or_false] at he
  rcases he with rfl | rfl | rfl | rfl
  · exact ⟨50000, by decide, 99999, by decide +kernel, fun h => absurd h.1 (by decide)⟩
  · exact ⟨500000000, by decide, 999999999, by decide +kernel, fun h => absurd h.1 (by decide)⟩
  · refine ⟨750000000000, by decide, 700000000000, by decide +kernel, fun h => ?_⟩
    have hgreater := h.2 800000000000 (by decide)
    omega
  · exact ⟨500000000000000, by decide, 999999999999999, by decide +kernel, fun h => absurd h.1 (by decide)⟩

end Negative

end Number

end EventPipeline
