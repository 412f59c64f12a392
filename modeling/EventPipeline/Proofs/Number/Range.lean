import EventPipeline.Number.Basic
import EventPipeline.Proofs.Number.Rounding

/-!
# The range of arithmetic

Which operations on numbers have a result. Beyond the greatest finite number there is half of a gap that is still
rounded down to it, and from there on no finite number is the nearest (`nearestRank_lt_iff`): an integer has a double
precision number just below `limit`. From this every operation gets its range: two integers always meet, an integer
and a double precision number meet if the integer is in range, a quotient of integers has to stay below the limit, and
an infinity has no remainder. Rounding is the only operation of several steps; what may fail is its scaling, never the
half that is added to what was scaled (`round_ok_iff`).
-/

namespace EventPipeline

/-- A sequence of two computations has a value if the first one has and the second one has on it. -/
theorem Except.bind_ok_iff {ε α β : Type} {r : Except ε α} {f : α → Except ε β} :
    (∃ v, (r >>= f) = .ok v) ↔ ∃ u, r = .ok u ∧ ∃ v, f u = .ok v := by
  cases r with
  | error e => simp [bind, Except.bind]
  | ok u => simp [bind, Except.bind]

namespace Binary64

/-! ### Rounding at the upper end -/

/-- The least natural number to which no finite number is the nearest: half of a gap beyond the greatest one. -/
@[irreducible] def limit : Nat := 2 ^ 1024 - 2 ^ 970

/-- A tie is rounded up to an even number. -/
theorem le_nearestQuotient_iff (num : Nat) {den k : Nat} (hd : 0 < den) (hk : k % 2 = 0) :
    k ≤ nearestQuotient num den ↔ 2 * k * den ≤ 2 * num + den := by
  have hnum := Nat.div_add_mod num den
  have hr := Nat.mod_lt num hd
  unfold nearestQuotient
  generalize num / den = q at *
  generalize num % den = r at *
  dsimp only
  rw [← hnum]
  rcases Nat.lt_trichotomy k (q + 1) with h | rfl | h
  · have hmul : 2 * k * den ≤ 2 * (den * q) := by nlinarith
    split_ifs <;> omega
  · have hmul : 2 * (q + 1) * den = 2 * (den * q) + 2 * den := by ring
    split_ifs <;> omega
  · have hmul : 2 * (den * q) + 4 * den ≤ 2 * k * den := by nlinarith
    split_ifs <;> omega

theorem nearestQuotient_bounds (num den : Nat) :
    num / den ≤ nearestQuotient num den ∧ nearestQuotient num den ≤ num / den + 1 := by
  unfold nearestQuotient
  dsimp only
  split_ifs <;> omega

/-- Below twice the power of two of a scale, a rank has that scale or a smaller one. -/
theorem nearestRank_le {num den s : Nat} (h : num < 2 ^ (53 + s) * den) :
    nearestRank num den ≤ (s + 2) * 2 ^ 52 := by
  have hscale : Nat.log2 (num / den) - 52 ≤ s := by
    by_cases h0 : num / den = 0
    · simp [h0]
    · have hlog : Nat.log2 (num / den) < 53 + s := (Nat.log2_lt h0).2 (Nat.div_lt_of_lt_mul (by rwa [mul_comm]))
      omega
  have hq : num / (den * 2 ^ (Nat.log2 (num / den) - 52)) < 2 ^ 53 := by
    rw [← Nat.div_div_eq_div_mul, Nat.div_lt_iff_lt_mul (by positivity), ← pow_add]
    by_cases h0 : num / den = 0
    · simp [h0]
    · exact (Nat.log2_lt h0).1 (by omega)
  have hnearest := (nearestQuotient_bounds num (den * 2 ^ (Nat.log2 (num / den) - 52))).2
  rw [nearestRank]
  nlinarith

/-- From the power of two of a scale on, a rank has that scale or a greater one. -/
theorem le_nearestRank {num den s : Nat} (hd : 0 < den) (h : 2 ^ (52 + s) * den ≤ num) :
    (s + 1) * 2 ^ 52 ≤ nearestRank num den := by
  have hdiv : 2 ^ (52 + s) ≤ num / den := (Nat.le_div_iff_mul_le hd).2 h
  have h0 : num / den ≠ 0 := fun h0 => by simp [h0] at hdiv
  have hscale : s ≤ Nat.log2 (num / den) - 52 := by
    have hlog : 52 + s ≤ Nat.log2 (num / den) := (Nat.le_log2 h0).2 hdiv
    omega
  have hq : 2 ^ 52 ≤ num / (den * 2 ^ (Nat.log2 (num / den) - 52)) := by
    rw [← Nat.div_div_eq_div_mul, Nat.le_div_iff_mul_le (by positivity), ← pow_add]
    exact (Nat.le_log2 h0).1 (by have := (Nat.le_log2 h0).2 hdiv; omega)
  have hnearest := (nearestQuotient_bounds num (den * 2 ^ (Nat.log2 (num / den) - 52))).1
  rw [nearestRank]
  nlinarith

theorem nearestRank_pos {num : Nat} (h : 0 < num) : 0 < nearestRank num 1 := by
  by_cases hscale : Nat.log2 (num / 1) - 52 = 0
  · have hnearest := (nearestQuotient_bounds num 1).1
    rw [nearestRank, hscale]
    simp only [Nat.div_one] at hnearest
    simp only [Nat.pow_zero, Nat.mul_one]
    omega
  · rw [nearestRank]
    exact Nat.add_pos_left (Nat.mul_pos (Nat.pos_of_ne_zero hscale) (by positivity)) _

/-- **The upper end of a scale.** A quotient gets a rank beyond a scale from half of a gap on before its end. -/
theorem nearestRank_lt_iff {num den : Nat} (t : Nat) (hd : 0 < den) :
    nearestRank num den < (t + 3) * 2 ^ 52 ↔ num < (2 ^ 54 - 1) * (2 ^ t * den) := by
  have hgap : 0 < 2 ^ t * den := by positivity
  have hpow : ∀ k, 2 ^ (k + t) * den = 2 ^ k * (2 ^ t * den) := fun k => by rw [pow_add, mul_assoc]
  rcases lt_or_ge num (2 ^ (53 + t) * den) with hlow | hlow
  · have hrank := nearestRank_le hlow
    rw [hpow] at hlow
    omega
  · rcases lt_or_ge num (2 ^ (54 + t) * den) with hhigh | hhigh
    · -- at the scale itself the significand decides
      have hscale : Nat.log2 (num / den) - 52 = t + 1 :=
        log2_sub_eq hd (by rwa [Nat.add_comm t 1, ← Nat.add_assoc]) (.inr (by rwa [Nat.add_comm t 1, ← Nat.add_assoc]))
      have heven := le_nearestQuotient_iff num (k := 2 ^ 53) (Nat.mul_pos Nat.two_pos hgap) (by decide)
      have hden : den * 2 ^ (t + 1) = 2 * (2 ^ t * den) := by ring
      rw [nearestRank, hscale, hden]
      omega
    · have hhigh' : 2 ^ (52 + (t + 2)) * den ≤ num := by rwa [Nat.add_comm t 2, ← Nat.add_assoc]
      have hrank := le_nearestRank hd hhigh'
      rw [hpow] at hhigh
      omega

/-! ### Finite numbers -/

/-- The number is finite. -/
def IsFinite (x : Binary64) : Prop := ∃ s r, x = .finite s r

theorem limit_units : limit * unitsPerOne = (2 ^ 54 - 1) * 2 ^ 2044 := by decide +kernel

/-- Units are rounded to a finite number just below the limit. -/
theorem ofUnits_isFinite_iff (s : Bool) (num : Nat) {den : Nat} (hd : 0 < den) :
    (ofUnits s num den).IsFinite ↔ num < limit * unitsPerOne * den := by
  rw [limit_units, mul_assoc, ← nearestRank_lt_iff 2044 hd, ofUnits, ofRank]
  split_ifs with h
  · exact iff_of_true ⟨s, ⟨_, h⟩, rfl⟩ h
  · exact iff_of_false (by rintro ⟨_, _, hf⟩; cases hf) h

theorem ofRatio_isFinite_iff (s : Bool) (num : Nat) {den : Nat} (hd : 0 < den) :
    (ofRatio s num den).IsFinite ↔ num < limit * den := by
  have hunits := unitsPerOne_pos
  rw [ofRatio, ofUnits_isFinite_iff s _ hd]
  generalize unitsPerOne = u at *
  rw [Nat.mul_right_comm, Nat.mul_lt_mul_right hunits]

theorem finite?_eq_some_iff {x y : Binary64} : x.finite? = some y ↔ x = y ∧ y.IsFinite := by
  cases x with
  | finite s r =>
    rw [finite?, Option.some_inj]
    exact ⟨fun h => ⟨h, s, r, h.symm⟩, fun h => h.1⟩
  | nan =>
    refine iff_of_false (by simp [finite?]) ?_
    rintro ⟨rfl, s, r, h⟩
    cases h
  | infinite s =>
    refine iff_of_false (by simp [finite?]) ?_
    rintro ⟨rfl, s, r, h⟩
    cases h

theorem exists_finite?_iff {x : Binary64} : (∃ y, x.finite? = some y) ↔ x.IsFinite := by
  simp only [finite?_eq_some_iff, exists_eq_left']

/-- An integer has a double precision number just below the limit. -/
theorem exists_ofInt?_iff {n : Int} : (∃ x, ofInt? n = some x) ↔ n.natAbs < limit := by
  rw [ofInt?, exists_finite?_iff, ofRatio_isFinite_iff _ _ Nat.one_pos, Nat.mul_one]

theorem isFinite_of_ofInt? {n : Int} {x : Binary64} (h : ofInt? n = some x) : x.IsFinite :=
  (finite?_eq_some_iff.1 h).2

theorem isZero_of_ofInt? {n : Int} {x : Binary64} (hn : n ≠ 0) (h : ofInt? n = some x) : x.isZero = false := by
  obtain ⟨hx, s, r, rfl⟩ := finite?_eq_some_iff.1 h
  have hnum : 0 < n.natAbs * unitsPerOne := Nat.mul_pos (Int.natAbs_pos.2 hn) unitsPerOne_pos
  have hrank := nearestRank_pos hnum
  rw [ofRatio, ofUnits, ofRank] at hx
  split_ifs at hx
  cases hx
  simpa [isZero] using Nat.ne_of_gt hrank

/-- Below the end of a scale there is room for half of a gap. -/
theorem units_add_lt_of_scale {rank t k : Nat} (h : scale rank ≤ t + 1) (hk : k < 2 ^ t) :
    units rank + k < (2 ^ 54 - 1) * 2 ^ t := by
  have hsig := significand_lt rank
  have hpow : 2 ^ scale rank ≤ 2 * 2 ^ t := by
    rw [← pow_succ']
    exact Nat.pow_le_pow_right (by decide) h
  have hmul : significand rank * 2 ^ scale rank ≤ (2 ^ 53 - 1) * (2 * 2 ^ t) := Nat.mul_le_mul (by omega) hpow
  rw [units]
  omega

/-- Less than half of a gap added to a finite number stays below the limit. -/
theorem units_add_lt (r : Fin (2047 * 2 ^ 52)) {k : Nat} (hk : k < 2 ^ 2044) : units r + k < limit * unitsPerOne := by
  rw [limit_units]
  refine units_add_lt_of_scale ?_ hk
  unfold scale
  omega

theorem natAbs_signedUnits (s : Bool) (rank : Nat) : (signedUnits s rank).natAbs = units rank := by
  cases s <;> simp [signedUnits]

/-- One half. -/
def oneHalf : Binary64 := .finite false ⟨1022 * 2 ^ 52, by decide⟩

/-- One half is less than half of the last gap, so it never leads beyond the greatest finite number. -/
theorem add_oneHalf_isFinite_iff {x : Binary64} : (x.add oneHalf).IsFinite ↔ x.IsFinite := by
  cases x with
  | nan => rfl
  | infinite t => simp [oneHalf, add, IsFinite]
  | finite t q =>
    refine iff_of_true ?_ ⟨t, q, rfl⟩
    rw [oneHalf, add]
    split_ifs with hsum
    · exact ⟨_, _, rfl⟩
    · rw [ofUnits_isFinite_iff _ _ Nat.one_pos, Nat.mul_one]
      refine lt_of_le_of_lt (Int.natAbs_add_le _ _) ?_
      rw [natAbs_signedUnits, natAbs_signedUnits]
      exact units_add_lt q (by decide +kernel)

theorem natAbs_floor_lt (s : Bool) (r : Fin (2047 * 2 ^ 52)) : (floor s r).natAbs < limit := by
  have hunits := unitsPerOne_pos
  have hlt := units_add_lt r (k := unitsPerOne) (by decide +kernel)
  rw [← natAbs_signedUnits s r] at hlt
  unfold floor
  generalize unitsPerOne = u at *
  generalize signedUnits s r = z at *
  rw [Int.fdiv_eq_ediv_of_nonneg _ (Int.natCast_nonneg u)]
  have hlow := Int.ediv_mul_le z (b := u) (by omega)
  have hhigh := Int.lt_ediv_add_one_mul_self z (b := u) (by omega)
  refine Nat.lt_of_mul_lt_mul_right (a := u) (lt_of_le_of_lt ?_ hlt)
  have hmul : (z / u).natAbs * u = (z / u * u).natAbs := by rw [Int.natAbs_mul, Int.natAbs_natCast]
  rw [hmul]
  rw [add_mul, one_mul] at hhigh
  generalize z / u * u = p at *
  omega

end Binary64

namespace Number

open Binary64 (limit oneHalf)

/-! ### Operands -/

/-- The number has a double precision one: it is one, or an integer below the limit. -/
def InRange : Number → Prop
  | .int n => n.natAbs < limit
  | .float _ => True

/-- Two numbers meet in an operation: both are integers, or both have double precision numbers. -/
def Meets : Number → Number → Prop
  | .int _, .int _ => True
  | a, b => a.InRange ∧ b.InRange

/-- The numbers have a quotient: that of two integers stays below the limit, other numbers meet. -/
def Divides : Number → Number → Prop
  | .int m, .int n => m.natAbs < limit * n.natAbs
  | a, b => a.InRange ∧ b.InRange

/-- The numbers have a remainder: they meet, and the first one is not infinite unless the second is no number. -/
def Remains (a b : Number) : Prop := a.Meets b ∧ ∀ s, a = .float (.infinite s) → b = .float .nan

variable {a b : Number}

theorem toFloat_ok_iff : (∃ x, a.toFloat = .ok x) ↔ a.InRange := by
  cases a with
  | float x => simp [toFloat, InRange]
  | int n =>
    rw [InRange, ← Binary64.exists_ofInt?_iff, toFloat]
    cases Binary64.ofInt? n <;> simp

/-- Only what is finite is the double precision number of an integer. -/
theorem isFinite_of_toFloat {n : Int} {x : Binary64} (h : (Number.int n).toFloat = .ok x) : x.IsFinite := by
  rw [toFloat] at h
  cases hx : Binary64.ofInt? n with
  | none => simp [hx] at h
  | some y =>
    rw [hx] at h
    cases h
    exact Binary64.isFinite_of_ofInt? hx

theorem eq_float_of_toFloat {x : Binary64} (h : a.toFloat = .ok x) (hx : ¬ x.IsFinite) : a = .float x := by
  cases a with
  | float y =>
    cases h
    rfl
  | int n => exact absurd (isFinite_of_toFloat h) hx

theorem combine_ok_iff {ints : Int → Int → Int} {floats : Binary64 → Binary64 → Binary64} :
    (∃ r, combine ints floats a b = .ok r) ↔ a.Meets b := by
  have hmixed : ∀ a b : Number, (∃ r, (a.toFloat >>= fun x => b.toFloat >>= fun y =>
      (pure (.float (floats x y)) : Except NumberError Number)) = .ok r) ↔ a.InRange ∧ b.InRange := by
    intro a b
    simp only [Except.bind_ok_iff, ← toFloat_ok_iff, pure, Except.pure, Except.ok.injEq, exists_eq', and_true,
      exists_and_right]
  cases a <;> cases b <;> simp only [combine, Meets, hmixed]
  simp

/-- A number that is not zero is none in double precision. -/
theorem isZero_of_toFloat {y : Binary64} (hb : b.isZero = false) (h : b.toFloat = .ok y) : y.isZero = false := by
  cases b with
  | float x =>
    cases h
    exact hb
  | int n =>
    rw [toFloat] at h
    cases hy : Binary64.ofInt? n with
    | none => simp [hy] at h
    | some x =>
      rw [hy] at h
      cases h
      have hn : n ≠ 0 := by simpa [isZero] using hb
      exact Binary64.isZero_of_ofInt? hn hy

theorem div_ok_iff (hb : b.isZero = false) : (∃ x, a.div b = .ok x) ↔ a.Divides b := by
  have hmixed : ∀ a : Number, (∃ x, (a.toFloat >>= fun x => b.toFloat >>= fun y =>
      if y.isZero then .error .divisionByZero else (pure (x.div y) : Except NumberError Binary64)) = .ok x) ↔
        a.InRange ∧ b.InRange := by
    intro a
    rw [← toFloat_ok_iff, ← toFloat_ok_iff, Except.bind_ok_iff]
    constructor
    · rintro ⟨x, hx, h⟩
      obtain ⟨y, hy, -⟩ := Except.bind_ok_iff.1 h
      exact ⟨⟨x, hx⟩, y, hy⟩
    · rintro ⟨⟨x, hx⟩, y, hy⟩
      refine ⟨x, hx, Except.bind_ok_iff.2 ⟨y, hy, x.div y, ?_⟩⟩
      rw [isZero_of_toFloat hb hy]
      rfl
  cases a with
  | float x => exact hmixed (.float x)
  | int m =>
    cases b with
    | float y => exact hmixed (.int m)
    | int n =>
      have hn : 0 < n.natAbs := Int.natAbs_pos.2 (by simpa [isZero] using hb)
      rw [div, quotient, Divides, ← Binary64.ofRatio_isFinite_iff ((m < 0) != (n < 0)) _ hn,
        ← Binary64.exists_finite?_iff]
      generalize Binary64.ofRatio _ _ _ = x
      cases x.finite? <;> simp

theorem rem?_isSome_iff {x y : Binary64} : (∃ z, x.rem? y = some z) ↔ ∀ s, x = .infinite s → y = .nan := by
  cases x <;> cases y <;> simp [Binary64.rem?]

theorem rem_ok_iff : (∃ r, a.rem b = .ok r) ↔ a.Remains b := by
  have hmixed : ∀ a b : Number, (∀ m n, a = .int m → b = .int n → False) → ((∃ r, a.rem b = .ok r) ↔
      (a.InRange ∧ b.InRange) ∧ ∀ s, a = .float (.infinite s) → b = .float .nan) := by
    intro a b hab
    rw [rem.eq_2 a b hab, ← toFloat_ok_iff, ← toFloat_ok_iff, Except.bind_ok_iff]
    constructor
    · rintro ⟨x, hx, h⟩
      obtain ⟨y, hy, r, hr⟩ := Except.bind_ok_iff.1 h
      refine ⟨⟨⟨x, hx⟩, y, hy⟩, fun s ha => ?_⟩
      have hsome : ∃ z, x.rem? y = some z := by
        cases hz : x.rem? y with
        | none => simp [hz] at hr
        | some z => exact ⟨z, rfl⟩
      rw [ha] at hx
      cases hx
      obtain rfl := rem?_isSome_iff.1 hsome s rfl
      exact eq_float_of_toFloat hy (by simp [Binary64.IsFinite])
    · rintro ⟨⟨⟨x, hx⟩, y, hy⟩, hnan⟩
      obtain ⟨z, hz⟩ : ∃ z, x.rem? y = some z := by
        refine rem?_isSome_iff.2 fun s hs => ?_
        subst hs
        rw [hnan s (eq_float_of_toFloat hx (by simp [Binary64.IsFinite]))] at hy
        cases hy
        rfl
      exact ⟨x, hx, Except.bind_ok_iff.2 ⟨y, hy, .float z, by rw [hz]; rfl⟩⟩
  cases a with
  | float x => exact hmixed (.float x) b (by simp)
  | int m =>
    cases b with
    | float y => exact hmixed (.int m) (.float y) (by simp)
    | int n => simp [rem, Remains, Meets]

/-! ### Rounding to digits -/

/-- The number is finite in double precision. -/
def IsFinite : Number → Prop
  | .int n => n.natAbs < limit
  | .float x => x.IsFinite

/-- The number can be rounded to a number of digits: it can be scaled by the power of ten, what was scaled is finite
and, if digits in front of the point are dropped, the integer nearest to it is finite again when it is scaled back. -/
def Rounds (a : Number) (digits : Int) : Prop :=
  ∃ scaled, a.mul (powerOfTen digits) = .ok scaled ∧ scaled.IsFinite ∧ (digits < 0 →
    ∃ whole x, (scaled.add half >>= floor) = .ok whole ∧ div (.int whole) (powerOfTen digits) = .ok x ∧ x.IsFinite)

theorem isFinite_iff : a.IsFinite ↔ ∃ x, a.toFloat = .ok x ∧ x.IsFinite := by
  cases a with
  | float x => simp [IsFinite, toFloat]
  | int n =>
    have hrange : (Number.int n).IsFinite ↔ (Number.int n).InRange := Iff.rfl
    rw [hrange, ← toFloat_ok_iff]
    constructor
    · rintro ⟨x, hx⟩
      exact ⟨x, hx, isFinite_of_toFloat hx⟩
    · rintro ⟨x, hx, -⟩
      exact ⟨x, hx⟩

theorem half_eq : half = .float oneHalf := by decide +kernel

theorem add_half {x : Binary64} (h : a.toFloat = .ok x) : a.add half = .ok (.float (x.add oneHalf)) := by
  rw [half_eq]
  cases a with
  | float y =>
    cases h
    rfl
  | int n =>
    rw [add, combine, h]
    · rfl
    · simp

theorem exists_toFloat_of_add_half {n : Number} (h : a.add half = .ok n) : ∃ x, a.toFloat = .ok x := by
  have hmeets := combine_ok_iff.1 ⟨n, h⟩
  rw [half_eq] at hmeets
  rw [toFloat_ok_iff]
  cases a with
  | float y => trivial
  | int m => exact hmeets.1

theorem floor_ok_iff {x : Binary64} : (∃ n, floor (.float x) = .ok n) ↔ x.IsFinite := by
  cases x <;> simp [floor, Binary64.IsFinite]

theorem isFinite_of_div {m n : Int} {x : Binary64} (h : div (.int m) (.int n) = .ok x) : x.IsFinite := by
  rw [div, quotient] at h
  generalize Binary64.ofRatio _ _ _ = y at h
  cases hy : y.finite? with
  | none => simp [hy] at h
  | some z =>
    rw [hy] at h
    cases h
    exact (Binary64.finite?_eq_some_iff.1 hy).2

/-- A finite number is next to an integer, which is in range. -/
theorem floor_add_half (h : a.IsFinite) : ∃ whole, (a.add half >>= floor) = .ok whole ∧ whole.natAbs < limit := by
  obtain ⟨x, hx, hfinite⟩ := isFinite_iff.1 h
  obtain ⟨s, r, hy⟩ := Binary64.add_oneHalf_isFinite_iff.2 hfinite
  refine ⟨Binary64.floor s r, ?_, Binary64.natAbs_floor_lt s r⟩
  rw [add_half hx, hy]
  rfl

theorem isFinite_of_floor {whole : Int} (h : (a.add half >>= floor) = .ok whole) : a.IsFinite := by
  obtain ⟨raised, hraised, n, hn⟩ := Except.bind_ok_iff.1 ⟨whole, h⟩
  obtain ⟨x, hx⟩ := exists_toFloat_of_add_half hraised
  rw [add_half hx] at hraised
  cases hraised
  exact isFinite_iff.2 ⟨x, hx, Binary64.add_oneHalf_isFinite_iff.1 (floor_ok_iff.1 ⟨n, hn⟩)⟩

/-- An integer in range stays in range when it is divided by a power of ten that is an integer. -/
theorem div_powerOfTen {whole digits : Int} (hw : whole.natAbs < limit) (hd : 0 ≤ digits) :
    ∃ x, div (.int whole) (powerOfTen digits) = .ok x ∧ x.IsFinite := by
  obtain ⟨n, rfl⟩ := Int.eq_ofNat_of_zero_le hd
  have hpos : 0 < (10 ^ n : Int) := by positivity
  have hzero : (Number.int (10 ^ n)).isZero = false := by simp [isZero]
  have hdivides : (Number.int whole).Divides (.int (10 ^ n)) :=
    lt_of_lt_of_le hw (Nat.le_mul_of_pos_right _ (Int.natAbs_pos.2 hpos.ne'))
  obtain ⟨x, hx⟩ := (div_ok_iff hzero).2 hdivides
  exact ⟨x, hx, isFinite_of_div hx⟩

/-- **What can be rounded.** -/
theorem round_ok_iff {digits : Int} : (∃ r, a.round digits = .ok r) ↔ a.Rounds digits := by
  unfold round
  rw [Except.bind_ok_iff]
  refine exists_congr fun scaled => and_congr_right fun _ => ?_
  rw [← bind_assoc, Except.bind_ok_iff]
  constructor
  · rintro ⟨whole, hwhole, h⟩
    refine ⟨isFinite_of_floor hwhole, fun hd => ?_⟩
    obtain ⟨x, hx, r, hr⟩ := Except.bind_ok_iff.1 h
    rw [if_pos (Int.le_of_lt hd)] at hr
    refine ⟨whole, x, hwhole, hx, ?_⟩
    cases x with
    | nan => cases hr
    | infinite s => cases hr
    | finite s q => exact ⟨s, q, rfl⟩
  · rintro ⟨hscaled, hback⟩
    obtain ⟨whole, hwhole, hrange⟩ := floor_add_half hscaled
    obtain ⟨x, hx, s, q, rfl⟩ : ∃ x, div (.int whole) (powerOfTen digits) = .ok x ∧ x.IsFinite := by
      rcases lt_or_ge digits 0 with hd | hd
      · obtain ⟨whole', x, hwhole', hx, hfinite⟩ := hback hd
        rw [hwhole] at hwhole'
        cases hwhole'
        exact ⟨x, hx, hfinite⟩
      · exact div_powerOfTen hrange hd
    refine ⟨whole, hwhole, Except.bind_ok_iff.2 ⟨_, hx, ?_⟩⟩
    split_ifs
    · exact ⟨_, rfl⟩
    · exact ⟨_, rfl⟩

end Number

end EventPipeline
