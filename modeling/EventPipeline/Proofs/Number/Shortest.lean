import EventPipeline.Proofs.Number.Rounding

/-!
# Shortest decimals read back

The search for the shortest decimal of a rank never runs out: seventeen digits always suffice
(`decimalAt?_seventeen`), since they lie closer together than double precision numbers do. So what the
search finds reads back as the rank that was searched for (`shortest_spec`).
-/

namespace EventPipeline

namespace Binary64

/-! ### Quotients and powers of ten -/

/-- The nearest rank of equal quotients. -/
theorem nearestRank_congr_div {a b c d : Nat} (hb : 0 < b) (hd : 0 < d) (h : (a : ℚ) / b = c / d) :
    nearestRank a b = nearestRank c d := by
  have hb' : (b : ℚ) ≠ 0 := by exact_mod_cast hb.ne'
  have hd' : (d : ℚ) ≠ 0 := by exact_mod_cast hd.ne'
  rw [div_eq_div_iff hb' hd'] at h
  exact nearestRank_congr hb hd (by exact_mod_cast h)

theorem shiftDecimal_pos (n : Nat) {d : Nat} (hd : 0 < d) (k : Int) : 0 < (shiftDecimal n d k).2 := by
  cases k with
  | ofNat k => exact hd
  | negSucc k => exact Nat.mul_pos hd (by positivity)

theorem shiftDecimal_div (n d : Nat) (k : Int) :
    ((shiftDecimal n d k).1 : ℚ) / (shiftDecimal n d k).2 = n / d * 10 ^ k := by
  cases k with
  | ofNat k =>
    rw [shiftDecimal, Int.ofNat_eq_natCast, zpow_natCast]
    push_cast
    ring
  | negSucc k =>
    rw [shiftDecimal, zpow_negSucc]
    push_cast
    rw [← div_div, div_eq_mul_inv (n / d : ℚ)]

/-- The value of a decimal. -/
def Decimal.value (d : Decimal) : ℚ := d.digits * 10 ^ d.exponent

/-- A decimal reads back as the rank of its value. -/
theorem readsBack_iff {rank : Nat} {d : Decimal} {num den : Nat} (hd : 0 < den)
    (h : (num : ℚ) / den = d.value * unitsPerOne) : readsBack rank d = true ↔ nearestRank num den = rank := by
  have hs : nearestRank (shiftDecimal (d.digits * unitsPerOne) 1 d.exponent).1
      (shiftDecimal (d.digits * unitsPerOne) 1 d.exponent).2 = nearestRank num den := by
    refine nearestRank_congr_div (shiftDecimal_pos _ (by decide) _) hd ?_
    rw [shiftDecimal_div, h, Decimal.value]
    push_cast
    ring
  rw [readsBack, ← hs]
  simp

/-! ### The leading exponent -/

theorem digits_bounds {n : Nat} (hn : 0 < n) :
    10 ^ ((Nat.toDigits 10 n).length - 1) ≤ n ∧ n < 10 ^ (Nat.toDigits 10 n).length := by
  have hl : 0 < (Nat.toDigits 10 n).length := Nat.length_toDigits_pos
  refine ⟨?_, (Nat.length_toDigits_le_iff (by decide) hl).1 le_rfl⟩
  by_cases h1 : (Nat.toDigits 10 n).length = 1
  · rw [h1]
    exact hn
  · by_contra hlt
    have := (Nat.length_toDigits_le_iff (b := 10) (n := n) (by decide)
      (show 0 < (Nat.toDigits 10 n).length - 1 by omega)).2 (Nat.lt_of_not_le hlt)
    omega

/-- The leading exponent is the one of the power of ten below a quotient. -/
theorem leadingExponent_spec {num den : Nat} (hn : 0 < num) (hd : 0 < den) :
    (10 : ℚ) ^ leadingExponent num den ≤ num / den ∧ (num : ℚ) / den < 10 ^ (leadingExponent num den + 1) := by
  have hnq : (0 : ℚ) < num := by exact_mod_cast hn
  have hdq : (0 : ℚ) < den := by exact_mod_cast hd
  unfold leadingExponent
  split_ifs with hle
  · obtain ⟨hlo, hhi⟩ := digits_bounds (Nat.div_pos hle hd)
    have hl : 0 < (Nat.toDigits 10 (num / den)).length := Nat.length_toDigits_pos
    generalize (Nat.toDigits 10 (num / den)).length = l at *
    obtain ⟨l, rfl⟩ : ∃ k, l = k + 1 := ⟨l - 1, by omega⟩
    rw [Nat.add_sub_cancel, Nat.le_div_iff_mul_le hd] at hlo
    rw [Nat.div_lt_iff_lt_mul hd] at hhi
    have h₁ : ((l + 1 : ℕ) : ℤ) - 1 = (l : ℕ) := by push_cast; ring
    have h₂ : ((l + 1 : ℕ) : ℤ) - 1 + 1 = (l + 1 : ℕ) := by ring
    rw [h₂, h₁, zpow_natCast, zpow_natCast]
    exact ⟨(le_div_iff₀ hdq).2 (by exact_mod_cast hlo), (div_lt_iff₀ hdq).2 (by exact_mod_cast hhi)⟩
  · have hlt : num < den := Nat.lt_of_not_le hle
    obtain ⟨hlo, hhi⟩ := digits_bounds (Nat.div_pos hlt.le hn)
    have hl : 0 < (Nat.toDigits 10 (den / num)).length := Nat.length_toDigits_pos
    dsimp only
    generalize (Nat.toDigits 10 (den / num)).length = l at *
    obtain ⟨l, rfl⟩ : ∃ k, l = k + 1 := ⟨l - 1, by omega⟩
    rw [Nat.add_sub_cancel] at *
    rw [Nat.le_div_iff_mul_le hn] at hlo
    rw [Nat.div_lt_iff_lt_mul hn] at hhi
    have hlo' : (10 : ℚ) ^ l * num ≤ den := by exact_mod_cast hlo
    have hhi' : (den : ℚ) < 10 ^ (l + 1) * num := by exact_mod_cast hhi
    have hp : (0 : ℚ) < 10 ^ l := by positivity
    have h₁ : ((l + 1 : ℕ) : ℤ) - 1 = (l : ℕ) := by push_cast; ring
    split_ifs with heq
    · have heq' : (den : ℚ) = num * 10 ^ l := by exact_mod_cast heq
      rw [h₁, zpow_neg, zpow_natCast, zpow_add₀ (by norm_num), zpow_neg, zpow_natCast, heq']
      have hx : (num : ℚ) / (num * 10 ^ l) = (10 ^ l)⁻¹ := by field_simp
      rw [hx]
      refine ⟨le_rfl, ?_⟩
      have : (0 : ℚ) < (10 ^ l)⁻¹ := by positivity
      linarith
    · have hne : (10 : ℚ) ^ l * num < den := by
        refine lt_of_le_of_ne hlo' fun h => heq ?_
        rw [mul_comm]
        exact_mod_cast h.symm
      have h₂ : -((l + 1 : ℕ) : ℤ) + 1 = -(l : ℕ) := by push_cast; ring
      rw [h₂, zpow_neg, zpow_natCast, zpow_neg, zpow_natCast]
      constructor
      · rw [inv_le_iff_one_le_mul₀ (by positivity), div_mul_eq_mul_div, one_le_div hdq]
        linarith
      · rw [lt_inv_comm₀ (by positivity) hp, inv_div, lt_div_iff₀ hnq]
        exact hne

/-! ### Seventeen digits -/

/-- The leading exponent of a rank. -/
def leading (rank : Nat) : Int := leadingExponent (units rank) unitsPerOne

theorem leading_spec {rank : Nat} (h : rank ≠ 0) :
    (10 : ℚ) ^ leading rank * unitsPerOne ≤ units rank ∧ (units rank : ℚ) < 10 ^ (leading rank + 1) * unitsPerOne := by
  obtain ⟨hlo, hhi⟩ := leadingExponent_spec (units_pos h) unitsPerOne_pos
  have hU : (0 : ℚ) < unitsPerOne := by exact_mod_cast unitsPerOne_pos
  exact ⟨(le_div_iff₀ hU).1 hlo, (div_lt_iff₀ hU).1 hhi⟩

/-- The rank lies between two decimals in a row. -/
theorem digitsBelow_spec (rank : Nat) (exponent : Int) :
    (digitsBelow rank exponent : ℚ) * (10 ^ exponent * unitsPerOne) ≤ units rank ∧
      (units rank : ℚ) < (digitsBelow rank exponent + 1) * (10 ^ exponent * unitsPerOne) := by
  have hU : (0 : ℚ) < unitsPerOne := by exact_mod_cast unitsPerOne_pos
  have hden : 0 < (multiple rank exponent).2 := shiftDecimal_pos _ unitsPerOne_pos _
  have hv : ((multiple rank exponent).1 : ℚ) / (multiple rank exponent).2 = units rank / unitsPerOne * 10 ^ (-exponent) :=
    shiftDecimal_div (units rank) unitsPerOne (-exponent)
  unfold digitsBelow
  generalize (multiple rank exponent).1 = num at *
  generalize (multiple rank exponent).2 = den at *
  generalize (unitsPerOne : ℚ) = U at hU hv ⊢
  have hdq : (0 : ℚ) < den := by exact_mod_cast hden
  have hx : (num : ℚ) / den * (10 ^ exponent * U) = units rank := by
    rw [hv, zpow_neg]
    field_simp
  have hpU : (0 : ℚ) < 10 ^ exponent * U := mul_pos (zpow_pos (by norm_num) _) hU
  rw [← hx]
  constructor
  · refine mul_le_mul_of_nonneg_right ?_ hpU.le
    rw [le_div_iff₀ hdq]
    exact_mod_cast Nat.div_mul_le_self num den
  · refine mul_lt_mul_of_pos_right ?_ hpU
    rw [div_lt_iff₀ hdq]
    exact_mod_cast Nat.lt_mul_of_div_lt (Nat.lt_succ_self _) hden

theorem digitsNearest_eq (rank : Nat) (exponent : Int) :
    digitsNearest rank exponent = digitsBelow rank exponent ∨
      digitsNearest rank exponent = digitsBelow rank exponent + 1 := by
  unfold digitsNearest digitsBelow nearestQuotient
  dsimp only
  split_ifs <;> omega

theorem chooseDigits_spec {below nearest digits : Nat} {b a : Bool} (hn : nearest = below ∨ nearest = below + 1)
    (h : chooseDigits below nearest b a = some digits) :
    (digits = below ∧ b = true) ∨ (digits = below + 1 ∧ a = true) := by
  cases b <;> cases a <;> simp only [chooseDigits, Option.some.injEq, reduceCtorEq] at h <;> subst h
  · exact .inr ⟨rfl, rfl⟩
  · exact .inl ⟨rfl, rfl⟩
  · exact hn.imp (⟨·, rfl⟩) (⟨·, rfl⟩)

/-- What is found at an exponent is one of two decimals, and it reads back. -/
theorem decimalAt?_spec {rank : Nat} {exponent : Int} {d : Decimal} (h : decimalAt? rank exponent = some d) :
    d.exponent = exponent ∧ (d.digits = digitsBelow rank exponent ∨ d.digits = digitsBelow rank exponent + 1) ∧
      readsBack rank d = true := by
  rw [decimalAt?] at h
  obtain ⟨digits, hc, rfl⟩ := Option.map_eq_some_iff.1 h
  rcases chooseDigits_spec (digitsNearest_eq rank exponent) hc with ⟨rfl, hr⟩ | ⟨rfl, hr⟩
  · exact ⟨rfl, .inl rfl, hr⟩
  · exact ⟨rfl, .inr rfl, hr⟩

/-- Something is found if one of the two decimals reads back. -/
theorem decimalAt?_isSome {rank : Nat} {exponent : Int}
    (h : readsBack rank ⟨digitsBelow rank exponent, exponent⟩ = true ∨
      readsBack rank ⟨digitsBelow rank exponent + 1, exponent⟩ = true) : (decimalAt? rank exponent).isSome := by
  rw [decimalAt?, Option.isSome_map]
  generalize readsBack rank ⟨digitsBelow rank exponent, exponent⟩ = below at h ⊢
  generalize readsBack rank ⟨digitsBelow rank exponent + 1, exponent⟩ = above at h ⊢
  cases below <;> cases above <;> first | rfl | simp at h

/-- A decimal reads back if it is near enough. -/
theorem readsBack_of_near {rank : Nat} {d : Decimal}
    (hu : d.value * unitsPerOne < units rank + 2 ^ scale rank / 2)
    (hl : (units rank : ℚ) - 2 ^ scale rank / 2 < d.value * unitsPerOne)
    (hp : significand rank = 2 ^ 52 → (units rank : ℚ) - 2 ^ scale rank / 4 < d.value * unitsPerOne) :
    readsBack rank d = true := by
  have hden : 0 < (shiftDecimal (d.digits * unitsPerOne) 1 d.exponent).2 := shiftDecimal_pos _ (by decide) _
  have hv : ((shiftDecimal (d.digits * unitsPerOne) 1 d.exponent).1 : ℚ) /
      (shiftDecimal (d.digits * unitsPerOne) 1 d.exponent).2 = d.value * unitsPerOne := by
    rw [shiftDecimal_div, Decimal.value]
    push_cast
    ring
  rw [readsBack_iff hden hv]
  rw [← hv] at hu hl hp
  exact nearestRank_eq hden hu hl hp

/-- **Seventeen digits suffice**: with them the decimals lie closer together than the ranks. -/
theorem decimalAt?_seventeen {rank : Nat} (h : rank ≠ 0) : (decimalAt? rank (leading rank - 16)).isSome := by
  obtain ⟨hlo, -⟩ := leading_spec h
  obtain ⟨hb, ha⟩ := digitsBelow_spec rank (leading rank - 16)
  have hgap : (10 : ℚ) ^ (leading rank - 16) * unitsPerOne * 10 ^ 16 ≤ units rank := by
    have hsplit : (10 : ℚ) ^ (leading rank - 16) * 10 ^ 16 = 10 ^ leading rank := by
      rw [zpow_sub₀ (by norm_num), zpow_ofNat]
      exact div_mul_cancel₀ _ (by norm_num)
    rw [mul_right_comm, hsplit]
    exact hlo
  have hunits : (units rank : ℚ) = significand rank * 2 ^ scale rank := by
    unfold units
    push_cast
    ring
  have hsig : (significand rank : ℚ) < 2 ^ 53 := by exact_mod_cast significand_lt rank
  have hs : (0 : ℚ) < 2 ^ scale rank := by positivity
  have hmax : (units rank : ℚ) < 2 ^ 53 * 2 ^ scale rank := by
    rw [hunits]
    exact mul_lt_mul_of_pos_right hsig hs
  have hpow : significand rank = 2 ^ 52 → (units rank : ℚ) = 2 ^ 52 * 2 ^ scale rank := by
    intro hm
    rw [hunits, hm]
    push_cast
    rfl
  apply decimalAt?_isSome
  generalize hD : digitsBelow rank (leading rank - 16) = D at *
  generalize hG : (10 : ℚ) ^ (leading rank - 16) * unitsPerOne = G at *
  have hval : ∀ k : ℕ, Decimal.value ⟨k, leading rank - 16⟩ * unitsPerOne = k * G := by
    intro k
    rw [Decimal.value, ← hG]
    ring
  -- the nearer one of the two decimals is at most half a step away
  by_cases hhalf : (units rank : ℚ) - D * G ≤ G / 2
  · left
    refine readsBack_of_near ?_ ?_ fun hm => ?_ <;> rw [hval]
    · linarith
    · linarith
    · have := hpow hm
      linarith
  · right
    refine readsBack_of_near ?_ ?_ fun hm => ?_ <;> rw [hval] <;> push_cast
    · linarith
    · linarith
    · linarith

/-! ### The search -/

theorem searchDecimal_of_some {rank : Nat} {exponent : Int} {d : Decimal} (h : decimalAt? rank exponent = some d)
    (steps : Nat) : searchDecimal rank exponent (steps + 1) = d := by
  rw [searchDecimal, h, Option.getD_some]

theorem searchDecimal_of_none {rank : Nat} {exponent : Int} (h : decimalAt? rank exponent = none) (steps : Nat) :
    searchDecimal rank exponent (steps + 1) = searchDecimal rank (exponent - 1) steps := by
  rw [searchDecimal, h, Option.getD_none]

/-- The search finds something if there is anything to be found. -/
theorem searchDecimal_spec (rank : Nat) (exponent : Int) {steps k : Nat} (hk : k < steps)
    (h : (decimalAt? rank (exponent - k)).isSome) :
    ∃ j : ℕ, j < steps ∧ decimalAt? rank (exponent - j) = some (searchDecimal rank exponent steps) := by
  induction steps generalizing exponent k with
  | zero => exact absurd hk (Nat.not_lt_zero k)
  | succ steps ih =>
    by_cases hd : (decimalAt? rank exponent).isSome
    · obtain ⟨d, hd⟩ := Option.isSome_iff_exists.1 hd
      rw [searchDecimal_of_some hd]
      exact ⟨0, Nat.succ_pos _, by rw [Nat.cast_zero, sub_zero, hd]⟩
    · have hk0 : k ≠ 0 := by
        rintro rfl
        rw [Nat.cast_zero, sub_zero] at h
        exact hd h
      obtain ⟨k, rfl⟩ := Nat.exists_eq_add_one_of_ne_zero hk0
      have hshift : ∀ i : ℕ, exponent - (i + 1 : ℕ) = exponent - 1 - i := fun i => by push_cast; ring
      rw [hshift] at h
      rw [searchDecimal_of_none (Option.not_isSome_iff_eq_none.1 hd)]
      obtain ⟨j, hj, hjd⟩ := ih (exponent - 1) (Nat.lt_of_succ_lt_succ hk) h
      exact ⟨j + 1, Nat.succ_lt_succ hj, by rw [hshift, hjd]⟩

/-- The search ends at one of the exponents that it tries. -/
theorem shortest_found {rank : Nat} (h : rank ≠ 0) :
    ∃ j : ℕ, j < 17 ∧ decimalAt? rank (leading rank - j) = some (shortest rank) := by
  rw [shortest, if_neg h]
  exact searchDecimal_spec rank (leading rank) (show 16 < 17 by decide) (decimalAt?_seventeen h)

/-- **The shortest decimal reads back.** -/
theorem readsBack_shortest {rank : Nat} (h : rank ≠ 0) : readsBack rank (shortest rank) = true := by
  obtain ⟨j, -, hj⟩ := shortest_found h
  exact (decimalAt?_spec hj).2.2

/-! ### The size of shortest decimals -/

theorem units_lt {rank : Nat} (h : rank < 2047 * 2 ^ 52) : units rank < 10 ^ 309 * unitsPerOne := by
  have hs : scale rank ≤ 2045 := by
    unfold scale
    omega
  calc units rank < 2 ^ 53 * 2 ^ scale rank := Nat.mul_lt_mul_of_pos_right (significand_lt rank) (by positivity)
    _ ≤ 2 ^ 53 * 2 ^ 2045 := Nat.mul_le_mul_left _ (Nat.pow_le_pow_right (by decide) hs)
    _ ≤ 10 ^ 309 * unitsPerOne := by decide +kernel

theorem unitsPerOne_lt : unitsPerOne < 10 ^ 324 := by decide +kernel

/-- The leading exponents of all ranks. -/
theorem leading_bounds {rank : Nat} (h : rank ≠ 0) (hr : rank < 2047 * 2 ^ 52) :
    -324 ≤ leading rank ∧ leading rank ≤ 308 := by
  obtain ⟨hlo, hhi⟩ := leading_spec h
  have hmax : (units rank : ℚ) < 10 ^ 309 * unitsPerOne := by exact_mod_cast units_lt hr
  have hmin : (1 : ℚ) ≤ units rank := by exact_mod_cast units_pos h
  have hU : (0 : ℚ) < unitsPerOne := by exact_mod_cast unitsPerOne_pos
  have hU' : (unitsPerOne : ℚ) < 10 ^ 324 := by exact_mod_cast unitsPerOne_lt
  generalize (unitsPerOne : ℚ) = U at *
  constructor
  · have h₁ : (1 : ℚ) < 10 ^ (leading rank + 1) * 10 ^ (324 : ℤ) := by
      have hp : (0 : ℚ) < 10 ^ (leading rank + 1) := zpow_pos (by norm_num) _
      calc (1 : ℚ) < 10 ^ (leading rank + 1) * U := lt_of_le_of_lt hmin hhi
        _ ≤ 10 ^ (leading rank + 1) * 10 ^ (324 : ℤ) := mul_le_mul_of_nonneg_left hU'.le hp.le
    rw [← zpow_add₀ (by norm_num), one_lt_zpow_iff_right₀ (by norm_num)] at h₁
    omega
  · have h₁ : (10 : ℚ) ^ leading rank < 10 ^ (309 : ℤ) := lt_of_mul_lt_mul_right (lt_of_le_of_lt hlo hmax) hU.le
    rw [zpow_lt_zpow_iff_right₀ (by norm_num)] at h₁
    omega

/-- The exponent of the first digit of a decimal. -/
def Decimal.first (d : Decimal) : Int := d.exponent + (Nat.toDigits 10 d.digits).length - 1

/-- A decimal found on the way down from the leading exponent has that leading exponent or the next one. -/
theorem first_of_decimalAt? {rank j : Nat} {d : Decimal} (h : rank ≠ 0)
    (hd : decimalAt? rank (leading rank - j) = some d) :
    0 < d.digits ∧ leading rank ≤ d.first ∧ d.first ≤ leading rank + 1 := by
  obtain ⟨he, hdig, -⟩ := decimalAt?_spec hd
  obtain ⟨hlo, hhi⟩ := leading_spec h
  obtain ⟨hb, ha⟩ := digitsBelow_spec rank (leading rank - j)
  have hU : (0 : ℚ) < unitsPerOne := by exact_mod_cast unitsPerOne_pos
  generalize (unitsPerOne : ℚ) = U at *
  generalize digitsBelow rank (leading rank - j) = D at *
  have hsub : (10 : ℚ) ^ leading rank = 10 ^ (j : ℤ) * 10 ^ (leading rank - j) := by
    rw [← zpow_add₀ (by norm_num), add_sub_cancel]
  have hp : (0 : ℚ) < 10 ^ (leading rank - j) * U := mul_pos (zpow_pos (by norm_num) _) hU
  have hge : 10 ^ j ≤ D := by
    have h₁ : (10 : ℚ) ^ (j : ℤ) < D + 1 := by
      refine lt_of_mul_lt_mul_right ?_ hp.le
      calc (10 : ℚ) ^ (j : ℤ) * (10 ^ (leading rank - j) * U) = 10 ^ leading rank * U := by rw [hsub, mul_assoc]
        _ < (D + 1) * (10 ^ (leading rank - j) * U) := lt_of_le_of_lt hlo ha
    rw [zpow_natCast] at h₁
    have : 10 ^ j < D + 1 := by exact_mod_cast h₁
    omega
  have hle : D < 10 ^ (j + 1) := by
    have h₁ : (D : ℚ) < 10 ^ (j : ℤ) * 10 := by
      refine lt_of_mul_lt_mul_right ?_ hp.le
      calc (D : ℚ) * (10 ^ (leading rank - j) * U) < 10 ^ (leading rank + 1) * U := lt_of_le_of_lt hb hhi
        _ = 10 ^ (j : ℤ) * 10 * (10 ^ (leading rank - j) * U) := by
          rw [zpow_add₀ (by norm_num), hsub, zpow_one]
          ring
    rw [zpow_natCast, ← pow_succ] at h₁
    exact_mod_cast h₁
  have hpos : 0 < 10 ^ j := by positivity
  have hmin : 10 ^ j ≤ d.digits := by omega
  have hmax : d.digits < 10 ^ (j + 2) := by
    rw [pow_succ] at hle ⊢
    omega
  have hlen : (Nat.toDigits 10 d.digits).length ≤ j + 2 := (Nat.length_toDigits_le_iff (by decide) (by omega)).2 hmax
  have hlen' : j < (Nat.toDigits 10 d.digits).length := by
    have := (digits_bounds (show 0 < d.digits by omega)).2
    exact (Nat.pow_lt_pow_iff_right (show 1 < 10 by decide)).1 (lt_of_le_of_lt hmin this)
  unfold Decimal.first
  refine ⟨by omega, by omega, by omega⟩

theorem shortest_bounds {rank : Nat} (h : rank ≠ 0) (hr : rank < 2047 * 2 ^ 52) :
    0 < (shortest rank).digits ∧ -324 ≤ (shortest rank).first ∧ (shortest rank).first ≤ 309 := by
  obtain ⟨j, -, hj⟩ := shortest_found h
  obtain ⟨hpos, hlo, hhi⟩ := first_of_decimalAt? h hj
  obtain ⟨hmin, hmax⟩ := leading_bounds h hr
  exact ⟨hpos, by omega, by omega⟩

end Binary64

end EventPipeline
