import EventPipeline.Expression.Evaluation
import EventPipeline.Proofs.Number.RoundedIntegers
import EventPipeline.Proofs.Number.Reading
import EventPipeline.Proofs.Text.Blanks

/-!
# Integers in expressions

Sums, differences, products and remainders of integers are exact, whatever their size. A division, the function `number`
and the comparison of an integer with a text pass through double precision and turn the result into an integer again.
So they give back the integers that are double precision numbers (`Binary64.isDouble_intCast_iff`), all up to `2 ^ 53`
among them, and no others (`integers_come_back_iff`). The function `round` is exact on fewer integers, because it takes
a sum with one half on its way (`round_integers`).
-/

namespace EventPipeline

namespace Binary64

open Number (rational)

/-! ### The text of an integer is read again -/

theorem strip_of_visible {t : Text} (h : ∀ s ∈ t, s.isBlank = false) : t.strip = t := by
  have hdrop : ∀ u : Text, (∀ s ∈ u, s.isBlank = false) → u.dropWhile Symbol.isBlank = u := by
    intro u hu
    cases u with
    | nil => rfl
    | cons s u => simp [hu s List.mem_cons_self]
  rw [Text.strip, Text.stripStart, hdrop t h, Text.stripEnd, hdrop _ (by simpa using h), List.reverse_reverse]

theorem ungroup_of_plain {t : Text} (h : ∀ s ∈ t, s ≠ .char '_') (beforeDigit : Bool) :
    ungroup beforeDigit t = some t := by
  induction t generalizing beforeDigit with
  | nil => rfl
  | cons s t ih =>
    rw [List.forall_mem_cons] at h
    unfold ungroup
    split
    case _ heq => cases heq
    case _ heq =>
      cases heq
      exact absurd rfl h.1
    case _ heq =>
      cases heq
      rw [ih h.2, Option.map_some]

theorem isDecimal_of_isDigit (c : Char) (h : c.isDigit = true) : (Symbol.char c).isDecimal = true := by
  rw [Symbol.isDecimal, decimalValue?_char h, Option.isSome_some]

theorem char_ne_of_isDecimal {s : Symbol} (h : s.isDecimal = true) {c : Char}
    (hc : (Symbol.char c).isDecimal = false) : s ≠ .char c := by
  rintro rfl
  rw [hc] at h
  cases h

theorem readSign_of_unsigned {t : Text} (h : ∀ s ∈ t.head?, s ≠ .char '-' ∧ s ≠ .char '+') :
    readSign t = (false, t) := by
  unfold readSign
  split
  · exact absurd rfl (h _ rfl).1
  · exact absurd rfl (h _ rfl).2
  · rfl

theorem toLower_of_isDigit {c : Char} (h : c.isDigit = true) : c.toLower = c := by
  have hle : c.toNat ≤ 57 := (Char.isDigit_iff_toNat.1 h).2
  have hupper : ¬ ('A'.val ≤ c.val ∧ c.val ≤ 'Z'.val) := by
    rintro ⟨hA, -⟩
    have hA : 65 ≤ c.toNat := UInt32.le_iff_toNat_le.1 hA
    omega
  exact dif_neg hupper

/-- The digits of a natural number are read as that number, after a sign or without one. -/
theorem ofText?_of_sign {t : Text} {negative : Bool} {n : Nat} (hvisible : ∀ s ∈ t, s.isBlank = false)
    (hplain : ∀ s ∈ t, s ≠ .char '_') (hsign : readSign t = (negative, Text.ofNat n)) :
    ofText? t = some (ofRatio negative n 1) := by
  have hdigits : ∀ s ∈ Text.ofNat n, s.isDecimal = true :=
    forall_mem_textOf isDecimal_of_isDigit fun _ => isDigit_of_mem_toDigits
  obtain ⟨htake, hdrop⟩ := takeWhile_run hdigits (by simp : ∀ s, ([] : Text).head? = some s → s.isDecimal = false)
  rw [List.append_nil] at htake hdrop
  obtain ⟨c, u, hcons, hc⟩ : ∃ c u, Text.ofNat n = .char c :: u ∧ c.isDigit = true := by
    obtain ⟨c, w, hw⟩ := List.exists_cons_of_ne_nil (Nat.toDigits_ne_nil (b := 10) (n := n))
    exact ⟨c, _, by rw [Text.ofNat, hw]; rfl, isDigit_of_mem_toDigits (by rw [hw]; exact List.mem_cons_self)⟩
  have hname : ∀ (d : Char) (name : Text), d.isDigit = false → lowerAscii (Text.ofNat n) ≠ .char d :: name := by
    intro d name hd h
    rw [hcons] at h
    have hfirst : Symbol.char c.toLower = .char d := (List.cons.inj h).1
    rw [toLower_of_isDigit hc, Symbol.char.injEq] at hfirst
    rw [← hfirst, hc] at hd
    cases hd
  have hinf : lowerAscii (Text.ofNat n) ≠ "inf" := hname 'i' _ rfl
  have hinfinity : lowerAscii (Text.ofNat n) ≠ "infinity" := hname 'i' _ rfl
  have hnan : lowerAscii (Text.ofNat n) ≠ "nan" := hname 'n' _ rfl
  unfold ofText?
  rw [strip_of_visible hvisible, ungroup_of_plain hplain, Option.bind_eq_bind, Option.bind_some, hsign]
  dsimp only
  rw [if_neg (not_or.2 ⟨hinf, hinfinity⟩), if_neg hnan, htake, hdrop]
  have hne : (Text.ofNat n).isEmpty = false := by rw [hcons]; rfl
  have hexponent : readExponent Symbol.isDecimal [] = (0, []) := rfl
  simp only [hne, Bool.false_and, Bool.false_eq_true, if_false, hexponent, List.isEmpty_nil, if_true, Numeral.value,
    List.append_nil, digitsValue_ofNat, List.length_nil, Int.natCast_zero, Int.sub_zero, Option.some_inj]
  have hdecimal : ofDecimal negative n 0 = ofRatio negative n 1 := by
    unfold ofDecimal
    split_ifs with h0 h1 h2
    · rw [h0, ofRatio, ofUnits, Nat.zero_mul, nearestRank_zero]
      rfl
    · omega
    · omega
    · rw [← Int.ofNat_zero]
      dsimp only
      rw [Nat.pow_zero, Nat.mul_one]
  exact hdecimal

theorem isDecimal_of_mem_ofNat {n : Nat} : ∀ s ∈ Text.ofNat n, s.isDecimal = true :=
  forall_mem_textOf isDecimal_of_isDigit fun _ => isDigit_of_mem_toDigits

/-- The text of an integer shows all of its symbols. -/
theorem isBlank_of_mem_ofInt (n : Int) : ∀ s ∈ Text.ofInt n, s.isBlank = false := by
  have hnat : ∀ n, ∀ s ∈ Text.ofNat n, s.isBlank = false := fun n s hs =>
    Symbol.isBlank_of_isDecimal (isDecimal_of_mem_ofNat s hs)
  cases n with
  | ofNat n => exact hnat n
  | negSucc n => exact List.forall_mem_cons.2 ⟨rfl, hnat _⟩

/-- **The text of an integer is read as the nearest number.** -/
theorem ofText?_ofInt (n : Int) : ofText? (Text.ofInt n) = some (ofRatio (n < 0) n.natAbs 1) := by
  have hplain : ∀ n, ∀ s ∈ Text.ofNat n, s ≠ .char '_' := fun n s hs =>
    char_ne_of_isDecimal (isDecimal_of_mem_ofNat s hs) rfl
  have hvisible := isBlank_of_mem_ofInt n
  cases n with
  | ofNat n =>
    refine ofText?_of_sign hvisible (hplain n) ?_
    rw [decide_eq_false (not_lt.2 (Int.natCast_nonneg n) : ¬ Int.ofNat n < 0)]
    refine readSign_of_unsigned fun s hs => ?_
    have hs := isDecimal_of_mem_ofNat s (List.mem_of_mem_head? hs)
    exact ⟨char_ne_of_isDecimal hs rfl, char_ne_of_isDecimal hs rfl⟩
  | negSucc n =>
    refine ofText?_of_sign (n := n + 1) hvisible ?_ (by rw [decide_eq_true (Int.negSucc_lt_zero n)]; rfl)
    exact List.forall_mem_cons.2 ⟨by decide, hplain _⟩

end Binary64

namespace Expression

open Binary64 (IsDouble Nearest limit)

variable {now : Int} {event : Value} {e f : Expr} {n m : Int}

/-- A multiple divided by its factor. -/
theorem quotientOf_multiple_iff (hm : m ≠ 0) :
    (∃ k, quotientOf (.int (n * m)) (.int m) = .ok k ∧ k.equals (.int n) = true) ↔ IsDouble n := by
  have hvalue : ((n * m : Int) : ℚ) / m = n := by
    rw [Int.cast_mul, mul_div_cancel_right₀ _ (Int.cast_ne_zero.2 hm)]
  rw [quotientOf]
  cases hx : Number.div (.int (n * m)) (.int m) with
  | ok x =>
    have hnearest := Number.nearest_quotient hm hx
    rw [hvalue] at hnearest
    rw [← Number.integral_equals_of_nearest hnearest]
    simp [Except.map]
  | error d =>
    refine iff_of_false (by simp [Except.map]) fun hdouble => ?_
    have hlimit := (Binary64.isDouble_intCast_iff.1 hdouble).1
    have hdivides : (Number.int (n * m)).Divides (.int m) := by
      rw [Number.Divides, Int.natAbs_mul]
      exact Nat.mul_lt_mul_of_pos_right hlimit (Int.natAbs_pos.2 hm)
    obtain ⟨x, hok⟩ := (Number.div_ok_iff (by simpa [Number.isZero] using hm)).2 hdivides
    rw [hx] at hok
    cases hok

theorem eval_binary {op : BinaryOp} {l r : Expr} {a b : Value} (hl : l.eval now event = .ok a)
    (hr : r.eval now event = .ok b) : (Expr.binary op l r).eval now event = applyBinary op a b := by
  rw [Expr.eval, hl, hr]
  rfl

theorem eval_call {c : Builtin} {l : Expr} {a : Value} (hl : l.eval now event = .ok a) :
    (Expr.call c [l]).eval now event = applyBuiltin now c [a] := by
  rw [Expr.eval, Expr.evalAll, hl]
  rfl

theorem numberOf_text {t : Text} {k : Number} (h : numberOfText? t = some k) :
    numberOf (.text t) = .ok (.number k.integral) := by
  simp only [numberOf, h]

/-- The text of an integer is read as what the integer is rounded to. -/
theorem numberOfText?_ofInt (n : Int) : ∃ x, numberOfText? (Text.ofInt n) = some (.float x) ∧ Nearest n x := by
  obtain ⟨s, t, hs⟩ : ∃ s t, Text.ofInt n = s :: t := by
    cases n with
    | ofNat n => exact List.exists_cons_of_ne_nil (by simp [Text.ofInt, Text.ofNat, Nat.toDigits_ne_nil])
    | negSucc n => exact ⟨_, _, rfl⟩
  have hblank : (Text.ofInt n).isBlank = false := by
    have hvisible := Binary64.isBlank_of_mem_ofInt n
    rw [hs] at hvisible ⊢
    rw [Text.isBlank, List.all_cons, hvisible s List.mem_cons_self, Bool.false_and]
  refine ⟨_, ?_, Binary64.nearest_ofInt n⟩
  rw [numberOfText?, hblank, Binary64.ofText?_ofInt]
  rfl

/-- **Integers that come back.** A multiple of an integer divided by its factor, the number that its text writes and
the comparison with its text give the integer exactly if it is a double precision number. -/
theorem integers_come_back_iff (he : e.eval now event = .ok (.int n)) (hf : f.eval now event = .ok (.int m))
    (hm : m ≠ 0) :
    ((Expr.binary .strictEq (.binary .div (.binary .mul e f) f) e).eval now event = .ok (.bool true) ↔ IsDouble n) ∧
      ((Expr.binary .strictEq (.call .number [.call .str [e]]) e).eval now event = .ok (.bool true) ↔ IsDouble n) ∧
      ((Expr.binary .eq e (.call .str [e])).eval now event = .ok (.bool true) ↔ IsDouble n) := by
  obtain ⟨x, hread, hnearest⟩ := numberOfText?_ofInt n
  have hstr : (Expr.call .str [e]).eval now event = .ok (.text (Text.ofInt n)) := eval_call he
  refine ⟨?_, ?_, ?_⟩
  · have hzero : (Number.int m).isZero = false := by simpa [Number.isZero] using hm
    have hmul : (Expr.binary .mul e f).eval now event = .ok (.int (n * m)) := eval_binary he hf
    have hdiv : (Expr.binary .div (.binary .mul e f) f).eval now event =
        if (Number.int m).isZero then .error (.divisionByZero .div)
        else ofNumber (quotientOf (.int (n * m)) (.int m)) := eval_binary hmul hf
    rw [hzero] at hdiv
    rw [← quotientOf_multiple_iff hm]
    cases hq : quotientOf (.int (n * m)) (.int m) with
    | error d =>
      rw [hq] at hdiv
      rw [Expr.eval, hdiv]
      simp [bind, Except.bind, ofNumber]
    | ok k =>
      rw [hq] at hdiv
      rw [eval_binary hdiv he]
      simp [applyBinary, strictlyEquals, Value.equals, Value.asNumber?, Value.int]
  · have hcall : (Expr.call .number [.call .str [e]]).eval now event = numberOf (.text (Text.ofInt n)) := eval_call hstr
    rw [numberOf_text hread] at hcall
    rw [eval_binary hcall he, ← Number.integral_equals_of_nearest hnearest]
    simp [applyBinary, strictlyEquals, Value.equals, Value.asNumber?, Value.int]
  · rw [eval_binary he hstr, ← Number.equals_of_nearest hnearest]
    simp [applyBinary, looselyEquals, strictlyEquals, Value.equals, Value.asNumber?, Value.int, unboolean,
      numeralEquals, hread]

/-- A power of two comes back from a division, however large it is. -/
theorem integers_come_back_iff_large :
    (Expr.binary .strictEq
      (.binary .div (.binary .mul (.literal (.int (2 ^ 70))) (.literal (.int 3))) (.literal (.int 3)))
      (.literal (.int (2 ^ 70)))).eval 0 .null = .ok (.bool true) :=
  (@integers_come_back_iff 0 .null (.literal (.int (2 ^ 70))) (.literal (.int 3)) (2 ^ 70) 3 rfl rfl (by decide)).1.2
    (Binary64.isDouble_intCast_iff.2 ⟨by decide +kernel, 1, 70, by decide, by decide⟩)

/-- The least natural number that is no double precision number, written down. -/
def firstLost : Expr := .literal (.int (2 ^ 53 + 1))

/-- In its place the next smaller number comes back, so that none of the three expressions is true. -/
theorem firstLost_lost :
    (Expr.binary .strictEq (.binary .div (.binary .mul firstLost (.literal (.int 1))) (.literal (.int 1)))
      firstLost).eval 0 .null = .ok (.bool false) ∧
    (Expr.binary .strictEq (.call .number [.call .str [firstLost]]) firstLost).eval 0 .null = .ok (.bool false) ∧
    (Expr.binary .eq firstLost (.call .str [firstLost])).eval 0 .null = .ok (.bool false) := by
  decide +kernel

/-! ### Rounding to digits -/

theorem roundOf_number {a b : Number} {x : Binary64} {d : Int} (hx : b.toFloat = .ok x) (hd : b.integer? = some d) :
    roundOf (.number a) (.number b) = ofNumber (a.round d) := by
  simp only [roundOf, hx, hd]

theorem applyBuiltin_round {d : Int} (hd : d.natAbs < limit) :
    applyBuiltin now .round [.int n, .int d] = ofNumber ((Number.int n).round d) := by
  obtain ⟨x, hx⟩ := (Number.toFloat_ok_iff (a := .int d)).2 hd
  have hround : ∀ v w, applyBuiltin now .round [v, w] = roundOf v w := fun _ _ => rfl
  rw [hround, Value.int, Value.int, roundOf_number hx rfl]

theorem ofNumber_eq_int_iff {r : Except NumberError Number} {k : Int} :
    ofNumber r = .ok (.int k) ↔ r = .ok (.int k) := by
  cases r <;> simp [ofNumber, Value.int]

theorem natAbs_digits_lt {d : Nat} (hd : 10 ^ d < limit) : (d : Int).natAbs < limit ∧ (-(d : Int)).natAbs < limit := by
  have hpow : d < 10 ^ d := Nat.lt_pow_self (by decide)
  rw [Int.natAbs_neg, Int.natAbs_natCast]
  exact ⟨lt_trans hpow hd, lt_trans hpow hd⟩

/-- **Rounding integers.** Without digits an integer is rounded to itself exactly if it is a double precision number and
either small enough for halves or even. To digits after the point it is rounded to itself if it can be scaled without an
error. In front of the point integers up to `2 ^ 51` are rounded to the nearest multiple of the power of ten, the
greater one of two, unless the power is the fifth, the ninth, the eleventh or the fifteenth. -/
theorem round_integers (now : Int) :
    (∀ n, applyBuiltin now .round [.int n, .int 0] = .ok (.int n) ↔
      IsDouble n ∧ (n.natAbs < 2 ^ 52 ∨ n % 2 = 0)) ∧
    (∀ (n : Int) (d : Nat), 0 < d → 10 ^ d < limit → IsDouble (n * 10 ^ d : Int) →
      ∃ v, applyBuiltin now .round [.int n, .int d] = .ok v ∧ strictlyEquals v (.int n) = true) ∧
    ∀ d : Nat, 0 < d → 10 ^ d < limit → ((∀ n : Int, n.natAbs ≤ 2 ^ 51 →
      ∃ r, applyBuiltin now .round [.int n, .int (-d)] = .ok (.int r) ∧ Number.NearestMultiple (10 ^ d) n r) ↔
        d ∉ [5, 9, 11, 15]) := by
  refine ⟨fun n => ?_, fun n d hd hlimit hdouble => ?_, fun d hd hlimit => ?_⟩
  · rw [applyBuiltin_round (by decide +kernel), ofNumber_eq_int_iff, Number.round_zero_iff]
  · obtain ⟨x, hround, hequals⟩ := Number.round_digits hd hdouble
    refine ⟨.number (.float x), ?_, ?_⟩
    · rw [applyBuiltin_round (natAbs_digits_lt hlimit).1, hround]
      rfl
    · simpa [strictlyEquals, Value.equals, Value.asNumber?, Value.int] using hequals
  · obtain ⟨e, rfl⟩ := Nat.exists_eq_add_one_of_ne_zero hd.ne'
    have hround : ∀ n r, applyBuiltin now .round [.int n, .int (-(e + 1 : Nat))] = .ok (.int r) ↔
        (Number.int n).round (Int.negSucc e) = .ok (.int r) := by
      intro n r
      rw [applyBuiltin_round (natAbs_digits_lt hlimit).2, ofNumber_eq_int_iff, Int.negSucc_eq, Nat.cast_succ]
    have hmem : e + 1 ∉ [5, 9, 11, 15] ↔ e ∉ [4, 8, 10, 14] := by simp
    simp only [hround, hmem]
    constructor
    · intro hall he
      obtain ⟨n, hn, r, hr, hmissed⟩ := Number.round_not_nearest he
      obtain ⟨k, hk, hnearest⟩ := hall n hn
      rw [hr] at hk
      cases hk
      exact hmissed hnearest
    · exact fun he n hn => Number.round_nearest hlimit he hn

theorem round_integers_both_ways :
    (∃ v, applyBuiltin 0 .round [.int 7, .int 3] = .ok v ∧ strictlyEquals v (.int 7) = true) ∧
      ∃ r, applyBuiltin 0 .round [.int 250, .int (-2)] = .ok (.int r) ∧ Number.NearestMultiple (10 ^ 2) 250 r :=
  ⟨(round_integers 0).2.1 7 3 (by decide) (by decide +kernel) (Binary64.isDouble_intCast (by decide)),
    ((round_integers 0).2.2 2 (by decide) (by decide +kernel)).2 (by decide) 250 (by decide)⟩

/-- Scaled back by the inverse of `10 ^ 5`, one multiple is just below an integer and loses a whole one; without digits
the sum with one half of an odd integer is already another integer. -/
theorem round_goes_astray :
    applyBuiltin 0 .round [.int 50000, .int (-5)] = .ok (.int 99999) ∧
      ¬ Number.NearestMultiple (10 ^ 5) 50000 99999 ∧ Number.NearestMultiple (10 ^ 5) 50000 100000 ∧
      applyBuiltin 0 .round [.int (2 ^ 52 + 1), .int 0] = .ok (.int (2 ^ 52 + 2)) :=
  ⟨by decide +kernel, fun h => absurd h.1 (by decide),
    Number.nearestMultiple_of_bounds (m := 1) (by decide) (by decide) (by decide), by decide +kernel⟩

end Expression

end EventPipeline
