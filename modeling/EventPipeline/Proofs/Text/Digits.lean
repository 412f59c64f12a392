import EventPipeline.Number.Reading
import EventPipeline.Pipeline.Spill
import Mathlib.Data.List.Basic
import Mathlib.Tactic.IntervalCases
import Mathlib.Tactic.Ring

/-!
# Digits and the numbers they write

A number is written as digits in several places: decimal ones in JSON, hexadecimal ones in the names
of spill files. Here the digits are read again: `digitsValue_ofNat` and `hexNumber_hex` say that
they write the number they were made from. As a consequence no two spill files share a name
(`fileName_injective`).
-/

namespace EventPipeline

/-! ### Decimal digits -/

theorem decimalValue?_char {c : Char} (hc : c.isDigit = true) :
    (Symbol.char c).decimalValue? = some (c.toNat - '0'.toNat) := by
  obtain ⟨h₁, h₂⟩ := Char.isDigit_iff_toNat.1 hc
  have h₁ : 48 ≤ c.toNat := h₁
  have h₂ : c.toNat ≤ 57 := h₂
  unfold Symbol.decimalValue?
  dsimp only
  generalize c.toNat = n at *
  interval_cases n <;> rfl

/-- Decimal digits write the number that they are the digits of. -/
theorem digitsValue_chars {cs : List Char} (h : ∀ c ∈ cs, c.isDigit = true) :
    digitsValue (cs.map .char) = Nat.ofDigitChars 10 cs 0 := by
  rw [digitsValue, List.foldl_map, Nat.ofDigitChars_eq_foldl]
  refine List.foldl_ext _ _ _ fun n c hc => ?_
  rw [decimalValue?_char (h c hc), Option.getD_some]

theorem isDigit_of_mem_toDigits {n : Nat} {c : Char} (h : c ∈ Nat.toDigits 10 n) : c.isDigit = true :=
  Nat.isDigit_of_mem_toDigits (by decide) (by decide) h

/-- The digits of a natural number write that number. -/
theorem digitsValue_ofNat (n : Nat) : digitsValue (Text.ofNat n) = n := by
  rw [Text.ofNat, digitsValue_chars fun _ => isDigit_of_mem_toDigits, Nat.ofDigitChars_ten_toDigits]

/-- The digits of a number that is not zero do not start with a zero. -/
theorem head?_toDigits {n : Nat} (hn : 0 < n) : (Nat.toDigits 10 n).head? ≠ some '0' := by
  induction n using Nat.strong_induction_on with
  | _ n ih =>
    rw [Nat.toDigits_eq_if (by decide)]
    split_ifs with h
    · interval_cases n <;> decide
    · rw [List.head?_append_of_ne_nil _ Nat.toDigits_ne_nil]
      exact ih (n / 10) (Nat.div_lt_self hn (by decide)) (by omega)

/-! ### Hexadecimal digits -/

/-- The number that the hexadecimal digits of a text write after those of another number; all other
symbols are passed over. -/
def hexNumber (t : Text) (n : Nat) : Nat :=
  t.foldl (fun m s => (s.hexValue?.map fun d => 16 * m + d).getD m) n

@[simp] theorem hexNumber_append (s t : Text) (n : Nat) : hexNumber (s ++ t) n = hexNumber t (hexNumber s n) :=
  List.foldl_append

/-- Digits of a base add up to the number they were made from. -/
theorem foldl_toDigits {b : Nat} (hb : 1 < b) (val : Char → Nat) (hv : ∀ d, d < b → val (Nat.digitChar d) = d)
    (n acc : Nat) :
    (Nat.toDigits b n).foldl (fun m c => b * m + val c) acc = b ^ (Nat.toDigits b n).length * acc + n := by
  induction n using Nat.strong_induction_on generalizing acc with
  | _ n ih =>
    rw [Nat.toDigits_eq_if hb]
    split_ifs with h
    · simp [hv n h]
    · have hlt : n / b < n := Nat.div_lt_self (by omega) hb
      rw [List.foldl_append, ih _ hlt, List.foldl_cons, List.foldl_nil, hv _ (Nat.mod_lt n (by omega)),
        List.length_append, List.length_singleton, pow_succ, mul_add, add_assoc, Nat.div_add_mod]
      ring

theorem hexValue?_digitChar {d : Nat} (hd : d < 16) : (Symbol.char d.digitChar).hexValue? = some d := by
  interval_cases d <;> decide

theorem hexNumber_replicate_zero (k n : Nat) : hexNumber (List.replicate k (.char '0')) n = 16 ^ k * n := by
  induction k generalizing n with
  | zero => simp [hexNumber]
  | succ k ih =>
    have h : (Symbol.char '0').hexValue? = some 0 := rfl
    rw [List.replicate_succ, hexNumber, List.foldl_cons, h]
    refine (ih _).trans ?_
    simp only [Option.map_some, Option.getD_some]
    ring

/-- All digits of a number are hexadecimal ones. -/
theorem hexValue?_of_mem_toDigits {n : Nat} : ∀ c ∈ Nat.toDigits 16 n, ∃ d, (Symbol.char c).hexValue? = some d := by
  induction n using Nat.strong_induction_on with
  | _ n ih =>
    rw [Nat.toDigits_eq_if (by decide)]
    split_ifs with h
    · intro c hc
      exact ⟨n, by rw [List.mem_singleton.1 hc, hexValue?_digitChar h]⟩
    · intro c hc
      rcases List.mem_append.1 hc with hc | hc
      · exact ih _ (Nat.div_lt_self (by omega) (by decide)) c hc
      · exact ⟨n % 16, by rw [List.mem_singleton.1 hc, hexValue?_digitChar (Nat.mod_lt n (by decide))]⟩

theorem hexNumber_toDigits (n m : Nat) :
    hexNumber ((Nat.toDigits 16 n).map .char) m = 16 ^ (Nat.toDigits 16 n).length * m + n := by
  have hval : ∀ d, d < 16 → ((Symbol.char d.digitChar).hexValue?).getD 0 = d := fun d hd => by
    rw [hexValue?_digitChar hd, Option.getD_some]
  rw [← foldl_toDigits (by decide) (fun c => (Symbol.char c).hexValue?.getD 0) hval, hexNumber, List.foldl_map]
  refine List.foldl_ext _ _ _ fun acc c hc => ?_
  obtain ⟨d, h⟩ := hexValue?_of_mem_toDigits c hc
  simp [h]

/-- A padded number is read again if it fits its width, and also if it is the first one. -/
theorem hexNumber_hex {width n m : Nat} (h : n < 16 ^ width ∨ m = 0) (hw : 0 < width) :
    hexNumber (Text.hex width n) m = 16 ^ width * m + n := by
  rw [Text.hex, hexNumber_append, hexNumber_replicate_zero, hexNumber_toDigits, List.length_map, ← mul_assoc, ← pow_add]
  rcases h with h | rfl
  · have hl : (Nat.toDigits 16 n).length ≤ width := (Nat.length_toDigits_le_iff (by decide) hw).2 h
    rw [Nat.add_sub_cancel' hl]
  · simp

theorem hexValue?_of_mem_hex {width n : Nat} {s : Symbol} (hs : s ∈ Text.hex width n) : ∃ d, s.hexValue? = some d := by
  rcases List.mem_append.1 hs with hs | hs
  · rw [List.eq_of_mem_replicate hs]
    exact ⟨0, rfl⟩
  · obtain ⟨c, hc, rfl⟩ := List.mem_map.1 hs
    exact hexValue?_of_mem_toDigits c hc

/-- A padded number takes its width if it fits. -/
theorem length_hex {width n : Nat} (h : n < 16 ^ width) (hw : 0 < width) : (Text.hex width n).length = width := by
  have hl : (Nat.toDigits 16 n).length ≤ width := (Nat.length_toDigits_le_iff (by decide) hw).2 h
  rw [Text.hex, List.length_append, List.length_replicate, List.length_map, Nat.sub_add_cancel hl]

/-! ### The names of spill files -/

namespace Spill

/-- The number can be read off the name. -/
theorem hexNumber_fileName (n : Nat) : hexNumber ((fileName n).drop fileLead.length) 0 = n := by
  have hdash : ∀ m, hexNumber ("-" : String) m = m := fun _ => rfl
  have hend : ∀ m, hexNumber (".json" : String) m = m := fun _ => rfl
  have hfits : ∀ k m, m % 2 ^ (4 * k) < 16 ^ k := fun k m => by
    rw [pow_mul]
    exact Nat.mod_lt m (Nat.pow_pos (by decide))
  rw [fileName, List.append_assoc, List.drop_left]
  simp only [Text.join, hexNumber_append, hdash, hend]
  rw [hexNumber_hex (.inr rfl) (by decide)]
  iterate 4 rw [hexNumber_hex (.inl (hfits _ _)) (by decide)]
  omega

/-- **No two files share a name.** -/
theorem fileName_injective : Function.Injective fileName := fun m n h => by
  rw [← hexNumber_fileName m, h, hexNumber_fileName]

/-- No file is named like the directory above. -/
theorem fileName_ne_up (n : Nat) : fileName n ≠ Path.up := by
  intro h
  have := congrArg List.head? h
  simp [fileName, fileLead, Path.up, Text.ofString] at this

end Spill

end EventPipeline
