import EventPipeline.Proofs.Number.Shortest
import EventPipeline.Proofs.Text.Digits
import Mathlib.Data.List.TakeWhile

/-!
# Numerals and what they stand for

Laying digits out, with a point or with an exponent, does not change the number that they write: the
parts of a numeral (`Parts`) always write the digits times a power of ten (`parts_lay`). So the
text of a finite number writes that number (`parts_magnitude`).
-/

namespace EventPipeline

namespace Binary64

/-! ### Significant digits -/

/-- The zeros at the end are cut off, and only they. -/
theorem trimZeros_append (ds : List Char) :
    ∃ zeros, trimZeros ds ++ List.replicate zeros '0' = ds := by
  refine ⟨(ds.reverse.takeWhile (· == '0')).length, ?_⟩
  have h : ds.reverse.takeWhile (· == '0') = List.replicate (ds.reverse.takeWhile (· == '0')).length '0' := by
    refine List.eq_replicate_of_mem fun c hc => ?_
    simpa using List.mem_takeWhile_imp hc
  rw [trimZeros, ← List.reverse_replicate, ← h, ← List.reverse_append, List.takeWhile_append_dropWhile,
    List.reverse_reverse]

/-- The digits of a positive number, or of a zero, as they are written. -/
structure Digits (ds : List Char) : Prop where
  /-- They are decimal digits. -/
  digits : ∀ c ∈ ds, c.isDigit = true
  /-- There is one at least. -/
  nonempty : ds ≠ []
  /-- A zero in front stands alone. -/
  lead : ds.head? = some '0' → ds = ['0']

/-! ### Parts of a numeral -/

/-- The part of a numeral after its point. -/
def fractionPart (f : List Char) : List Char := if f = [] then [] else '.' :: f

/-- The exponent part of a numeral. -/
def exponentPart (x : Int) (power : List Char) : List Char := 'e' :: (if x < 0 then '-' else '+') :: power

/-- The characters of a numeral, cut into parts: digits before the point, digits after it, and an
exponent. A numeral has a point or an exponent. -/
inductive Parts (w f : List Char) : Int → List Char → Prop where
  /-- There is no exponent. -/
  | plain (hf : f ≠ []) : Parts w f 0 (w ++ '.' :: f)
  /-- There is an exponent, with digits that write its magnitude. -/
  | scientific (x : Int) (power : List Char) (hd : ∀ c ∈ power, c.isDigit = true) (hp : power ≠ [])
      (hx : Nat.ofDigitChars 10 power 0 = x.natAbs) : Parts w f x (w ++ fractionPart f ++ exponentPart x power)

/-- The parts write digits, perhaps with zeros after them, times a power of ten. -/
structure Writes (w f : List Char) (x : Int) (ds : List Char) (E : Int) : Prop where
  /-- The digits before the point. -/
  whole : Digits w
  /-- The digits after the point. -/
  fraction : ∀ c ∈ f, c.isDigit = true
  /-- The value. -/
  value : ∃ zeros : ℕ, Nat.ofDigitChars 10 (w ++ f) 0 = Nat.ofDigitChars 10 ds 0 * 10 ^ zeros ∧
    x - f.length = E + 1 - ds.length - zeros

theorem ofDigitChars_zeros (cs : List Char) (k : ℕ) :
    Nat.ofDigitChars 10 (cs ++ List.replicate k '0') 0 = Nat.ofDigitChars 10 cs 0 * 10 ^ k := by
  rw [Nat.ofDigitChars_append, Nat.ofDigitChars_replicate_zero, mul_comm]

theorem ofDigitChars_lead (cs : List Char) (k : ℕ) :
    Nat.ofDigitChars 10 (List.replicate k '0' ++ cs) 0 = Nat.ofDigitChars 10 cs 0 := by
  rw [Nat.ofDigitChars_append, Nat.ofDigitChars_replicate_zero, mul_zero]

theorem isDigit_of_mem_replicate {k : ℕ} {c : Char} (h : c ∈ List.replicate k '0') : c.isDigit = true := by
  rw [List.eq_of_mem_replicate h]
  rfl

/-- A zero that stands alone. -/
theorem digits_zero : Digits ['0'] where
  digits := List.forall_mem_singleton.2 rfl
  nonempty := List.cons_ne_nil _ _
  lead := fun _ => rfl

/-- A point behind or inside the digits. -/
theorem writes_positional {ds : List Char} (h : Digits ds) (e : ℕ) (he : ds = ['0'] → e = 0) :
    ∃ w f, Parts w f 0 (ds.take (e + 1) ++ List.replicate (e + 1 - ds.length) '0' ++
      '.' :: (if (ds.drop (e + 1)).isEmpty then ['0'] else ds.drop (e + 1))) ∧ Writes w f 0 ds e := by
  have hhead : ∀ more, (ds ++ more).head? = ds.head? := fun more => List.head?_append_of_ne_nil _ h.nonempty
  by_cases hlen : ds.length ≤ e + 1
  · rw [List.take_of_length_le hlen, List.drop_eq_nil_of_le hlen]
    refine ⟨_, ['0'], .plain (by simp), ⟨?_, ?_, ?_⟩, digits_zero.digits, e + 2 - ds.length, ?_, ?_⟩
    · intro c hc
      rcases List.mem_append.1 hc with hc | hc
      · exact h.digits c hc
      · exact isDigit_of_mem_replicate hc
    · simp [h.nonempty]
    · rw [hhead]
      intro h0
      have hds := h.lead h0
      rw [hds, he hds]
      rfl
    · rw [List.append_assoc, show (['0'] : List Char) = List.replicate 1 '0' from rfl, List.replicate_append_replicate,
        ofDigitChars_zeros]
      congr 2
      omega
    · simp only [List.length_singleton]
      omega
  · have hlt : e + 1 < ds.length := Nat.lt_of_not_le hlen
    have hdrop : ds.drop (e + 1) ≠ [] := by simpa using hlt
    rw [Nat.sub_eq_zero_of_le hlt.le, List.replicate_zero, List.append_nil,
      if_neg (by rwa [List.isEmpty_iff])]
    refine ⟨_, _, .plain hdrop, ⟨?_, ?_, ?_⟩, fun c hc => h.digits c (List.mem_of_mem_drop hc), 0, ?_, ?_⟩
    · exact fun c hc => h.digits c (List.mem_of_mem_take hc)
    · simp [h.nonempty]
    · intro h0
      rw [List.head?_take, if_neg (by omega)] at h0
      rw [h.lead h0] at hlt
      simp at hlt
    · rw [List.take_append_drop, pow_zero, mul_one]
    · rw [List.length_drop]
      omega

/-- A point in front of the digits. -/
theorem writes_small {ds : List Char} (h : Digits ds) (e : ℕ) :
    ∃ w f, Parts w f 0 ('0' :: '.' :: List.replicate e '0' ++ ds) ∧ Writes w f 0 ds (Int.negSucc e) := by
  refine ⟨['0'], List.replicate e '0' ++ ds, .plain (by simp [h.nonempty]), digits_zero, ?_,
    0, ?_, ?_⟩
  · intro c hc
    rcases List.mem_append.1 hc with hc | hc
    · exact isDigit_of_mem_replicate hc
    · exact h.digits c hc
  · rw [show (['0'] : List Char) = List.replicate 1 '0' from rfl, ← List.append_assoc, List.replicate_append_replicate,
      ofDigitChars_lead, pow_zero, mul_one]
  · rw [List.length_append, List.length_replicate]
    omega

/-- An exponent behind the digits. -/
theorem writes_scientific {ds : List Char} (h : Digits ds) (E : Int) (width : ℕ) :
    ∃ w f, Parts w f E (mantissa ds ++ 'e' :: (if E < 0 then '-' else '+') ::
      List.replicate (width - (Nat.toDigits 10 E.natAbs).length) '0' ++ Nat.toDigits 10 E.natAbs) ∧ Writes w f E ds E := by
  obtain ⟨d, rest, rfl⟩ := List.exists_cons_of_ne_nil h.nonempty
  have hparts : Parts [d] rest E ([d] ++ fractionPart rest ++ exponentPart E
      (List.replicate (width - (Nat.toDigits 10 E.natAbs).length) '0' ++ Nat.toDigits 10 E.natAbs)) := by
    refine .scientific E _ (fun c hc => ?_) (by simp) ?_
    · rcases List.mem_append.1 hc with hc | hc
      · exact isDigit_of_mem_replicate hc
      · exact isDigit_of_mem_toDigits hc
    · rw [ofDigitChars_lead, Nat.ofDigitChars_ten_toDigits]
  refine ⟨[d], rest, ?_, ⟨?_, by simp, fun _ => ?_⟩, fun c hc => h.digits c (List.mem_cons_of_mem _ hc), 0, ?_, ?_⟩
  · rcases rest with _ | ⟨d', rest⟩ <;> simpa [mantissa, fractionPart, exponentPart] using hparts
  · intro c hc
    rw [List.mem_singleton.1 hc]
    exact h.digits d List.mem_cons_self
  · simp_all
  · rw [List.singleton_append, pow_zero, mul_one]
  · rw [List.length_cons]
    omega

/-- **Laying digits out keeps their value.** -/
theorem parts_lay {ds : List Char} (h : Digits ds) (E : Int) (hE : ds = ['0'] → E = 0) :
    ∃ w f x, Parts w f x (layout.lay ds E) ∧ Writes w f x ds E := by
  unfold Layout.lay
  by_cases hpos : layout.leastPositional ≤ E ∧ E < layout.leastScientific
  · rw [if_pos hpos]
    rcases E with e | e
    · obtain ⟨w, f, hp, hw⟩ := writes_positional h e fun h0 => by simpa using hE h0
      exact ⟨w, f, 0, hp, hw⟩
    · obtain ⟨w, f, hp, hw⟩ := writes_small h e
      exact ⟨w, f, 0, hp, hw⟩
  · rw [if_neg hpos]
    obtain ⟨w, f, hp, hw⟩ := writes_scientific h E layout.exponentWidth
    exact ⟨w, f, E, hp, hw⟩

/-! ### Reading a magnitude -/

/-- A decimal with the value of the shortest decimal of a rank is read as that rank. -/
theorem ofDecimal_eq {rank : Nat} (h0 : rank ≠ 0) (hr : rank < 2047 * 2 ^ 52) (negative : Bool) {digits : Nat}
    {exponent : Int} (hv : (digits : ℚ) * 10 ^ exponent = (shortest rank).value) (hhi : exponent ≤ 400)
    (hlo : -((Nat.log2 digits / 3 : Nat) + 400 : Int) ≤ exponent) :
    ofDecimal negative digits exponent = .finite negative ⟨rank, hr⟩ := by
  have hback := readsBack_shortest h0
  have hpos := (shortest_bounds h0 hr).1
  have hd : digits ≠ 0 := by
    rintro rfl
    rw [Nat.cast_zero, zero_mul, Decimal.value, eq_comm, mul_eq_zero] at hv
    rcases hv with hv | hv
    · have : (shortest rank).digits = 0 := by exact_mod_cast hv
      omega
    · exact absurd hv (zpow_pos (by norm_num) _).ne'
  have hrank : ∀ num den : Nat, 0 < den → (num : ℚ) / den = digits * 10 ^ exponent * unitsPerOne →
      ofUnits negative num den = .finite negative ⟨rank, hr⟩ := by
    intro num den hden h
    rw [hv] at h
    rw [ofUnits, (readsBack_iff hden h).1 hback, ofRank, dif_pos hr]
  unfold ofDecimal
  rw [if_neg hd, if_neg (by omega), if_neg (by omega)]
  rcases exponent with e | e
  · refine hrank _ _ (by decide) ?_
    rw [Int.ofNat_eq_natCast, zpow_natCast]
    push_cast
    ring
  · refine hrank _ _ (by positivity) ?_
    rw [zpow_negSucc]
    push_cast
    ring

/-- The significant digits of a decimal that is not zero. -/
theorem digits_trimZeros {n : Nat} (hn : 0 < n) : Digits (trimZeros (Nat.toDigits 10 n)) := by
  obtain ⟨zeros, hz⟩ := trimZeros_append (Nat.toDigits 10 n)
  have hhead := head?_toDigits hn
  have hne : trimZeros (Nat.toDigits 10 n) ≠ [] := by
    intro h
    rw [h, List.nil_append] at hz
    rw [← hz] at hhead
    have : zeros ≠ 0 := by
      rintro rfl
      exact Nat.toDigits_ne_nil hz.symm
    rw [List.head?_replicate, if_neg this] at hhead
    exact hhead rfl
  rw [← hz, List.head?_append_of_ne_nil _ hne] at hhead
  exact ⟨fun c hc => isDigit_of_mem_toDigits (hz ▸ List.mem_append_left _ hc), hne, fun h => absurd h hhead⟩

/-- Significant digits are those of a number of that many digits. -/
theorem pow_le_significant {n zeros : Nat} {ds : List Char} (hn : 0 < n) (hds : ds ≠ [])
    (hz : ds ++ List.replicate zeros '0' = Nat.toDigits 10 n) :
    n = Nat.ofDigitChars 10 ds 0 * 10 ^ zeros ∧ 10 ^ (ds.length - 1) ≤ Nat.ofDigitChars 10 ds 0 := by
  have hval : n = Nat.ofDigitChars 10 ds 0 * 10 ^ zeros := by
    rw [← ofDigitChars_zeros, hz, Nat.ofDigitChars_ten_toDigits]
  have hlen : 0 < ds.length := List.length_pos_iff.2 hds
  have hle := (digits_bounds hn).1
  rw [← hz, List.length_append, List.length_replicate, show ds.length + zeros - 1 = ds.length - 1 + zeros by omega,
    pow_add] at hle
  refine ⟨hval, Nat.le_of_mul_le_mul_right (le_of_le_of_eq hle hval) (by positivity)⟩

/-- **The text of a magnitude is a numeral that is read as that magnitude.** -/
theorem parts_magnitude (negative : Bool) (r : Fin (2047 * 2 ^ 52)) :
    ∃ w f x, Parts w f x (magnitudeChars r) ∧ Digits w ∧ (∀ c ∈ f, c.isDigit = true) ∧
      ofDecimal negative (Nat.ofDigitChars 10 (w ++ f) 0) (x - f.length) = .finite negative r := by
  obtain ⟨rank, hr⟩ := r
  unfold magnitudeChars
  dsimp only
  by_cases h0 : rank = 0
  · subst h0
    refine ⟨['0'], ['0'], 0, ?_, digits_zero, digits_zero.digits, rfl⟩
    exact .plain (by decide)
  · obtain ⟨hpos, hmin, hmax⟩ := shortest_bounds h0 hr
    have hds := digits_trimZeros hpos
    obtain ⟨z, hz⟩ := trimZeros_append (Nat.toDigits 10 (shortest rank).digits)
    have hlen := congrArg List.length hz
    obtain ⟨hval, hsig⟩ := pow_le_significant hpos hds.nonempty hz
    rw [if_neg h0, if_neg (by simpa using hds.nonempty)]
    rw [Decimal.first] at hmin hmax
    generalize trimZeros (Nat.toDigits 10 (shortest rank).digits) = ds at *
    rw [List.length_append, List.length_replicate] at hlen
    have hdslen : 0 < ds.length := List.length_pos_iff.2 hds.nonempty
    have hzero : ds = ['0'] → (shortest rank).exponent + (Nat.toDigits 10 (shortest rank).digits).length - 1 = 0 := by
      rintro rfl
      simp [Nat.ofDigitChars_cons] at hsig
    obtain ⟨w, f, x, hp, hw, hf, zeros, hN, hX⟩ := parts_lay hds _ hzero
    refine ⟨w, f, x, hp, hw, hf, ofDecimal_eq h0 hr negative ?_ (by omega) ?_⟩
    · have hx : x - f.length = (shortest rank).exponent + z - zeros := by omega
      rw [hN, hx, Decimal.value, hval, zpow_sub₀ (by norm_num), zpow_add₀ (by norm_num)]
      push_cast
      rw [zpow_natCast, zpow_natCast]
      field_simp
    · have hlog : ds.length - 1 + zeros ≤ Nat.log2 (Nat.ofDigitChars 10 (w ++ f) 0) / 3 := by
        have hbig : 10 ^ (ds.length - 1 + zeros) ≤ Nat.ofDigitChars 10 (w ++ f) 0 := by
          rw [hN, pow_add]
          exact Nat.mul_le_mul_right _ hsig
        have hne : Nat.ofDigitChars 10 (w ++ f) 0 ≠ 0 := by
          have : 0 < 10 ^ (ds.length - 1 + zeros) := by positivity
          omega
        rw [Nat.le_div_iff_mul_le (by decide), mul_comm, Nat.le_log2 hne, pow_mul]
        exact le_trans (Nat.pow_le_pow_left (by decide) _) hbig
      omega

end Binary64

end EventPipeline
