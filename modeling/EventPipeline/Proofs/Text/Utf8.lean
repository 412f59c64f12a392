import EventPipeline.Text.Utf8
import Mathlib.Tactic.Common
import Mathlib.Tactic.SplitIfs

/-!
# UTF-8 is read back

The bytes of a text are decoded to the same text (`decode_encode`). The decoder reads one code point at a
time: a lead byte says how many bytes it owes and which second byte it admits, and each further byte adds
six bits; what these steps come to for the bytes of a code point is the code point (`decodeFrom_utf8Bytes`).
-/

namespace EventPipeline

namespace Symbol

/-- The code point of a character gives the character. -/
theorem ofCode_toNat (c : Char) : ofCode c.toNat = .char c := by
  have hc := c.valid
  simp only [UInt32.isValidChar, Nat.isValidChar] at hc
  rw [ofCode, dif_neg, Char.ofNat_toNat]
  simp only [Char.toNat]
  omega

end Symbol

namespace Text

/-- The decoder between two characters. -/
def Utf8State.between : Utf8State := ⟨0, 0, 0, 0⟩

/-- A code point below 0x80 is its own byte. -/
theorem decodeFrom_ascii {b : UInt8} (h : b.toNat < 0x80) (rest : List UInt8) :
    decodeFrom .between (b :: rest) = Symbol.ofCode b.toNat :: decodeFrom .between rest := by
  simp [decodeFrom, Utf8State.between, h]

/-- A lead byte: what it owes, and the bits that it holds. -/
theorem decodeFrom_lead {b : UInt8} {low high owed : Nat} (h : utf8Lead? b.toNat = some (low, high, owed))
    (rest : List UInt8) :
    decodeFrom .between (b :: rest) = decodeFrom
      ⟨owed, low, high, b.toNat % (if owed = 1 then 0x20 else if owed = 2 then 0x10 else 0x08)⟩ rest := by
  have hb : ¬ b.toNat < 0x80 := by
    intro hb
    have hnone : utf8Lead? b.toNat = none := by
      unfold utf8Lead?
      split_ifs <;> first | omega | rfl
    rw [hnone] at h
    cases h
  simp [decodeFrom, Utf8State.between, hb, h]

/-- A byte in the middle of a character. -/
theorem decodeFrom_middle {b : UInt8} {owed low high bits : Nat} (hl : low ≤ b.toNat) (hh : b.toNat ≤ high)
    (rest : List UInt8) :
    decodeFrom ⟨owed + 2, low, high, bits⟩ (b :: rest) =
      decodeFrom ⟨owed + 1, 0x80, 0xBF, bits * 0x40 + b.toNat % 0x40⟩ rest := by
  simp [decodeFrom, hl, hh]

/-- The last byte of a character. -/
theorem decodeFrom_last {b : UInt8} {low high bits : Nat} (hl : low ≤ b.toNat) (hh : b.toNat ≤ high)
    (rest : List UInt8) :
    decodeFrom ⟨1, low, high, bits⟩ (b :: rest) =
      Symbol.ofCode (bits * 0x40 + b.toNat % 0x40) :: decodeFrom .between rest := by
  simp [decodeFrom, Utf8State.between, hl, hh]

theorem toNat_toUInt8 {n : Nat} (h : n < 0x100) : n.toUInt8.toNat = n := by
  simp [Nat.toUInt8, Nat.mod_eq_of_lt h]

/-- The lead byte of two admits any second byte. -/
theorem utf8Lead?_two {n : Nat} (h₁ : 0x80 ≤ n) (h₂ : n < 0x800) :
    utf8Lead? (0xC0 + n / 0x40) = some (0x80, 0xBF, 1) := by
  rw [utf8Lead?, if_pos (by omega)]

/-- The lead byte of three admits the second byte of any code point that is no surrogate. -/
theorem utf8Lead?_three {n : Nat} (h₁ : 0x800 ≤ n) (h₂ : n < 0x10000) (hs : n < 0xD800 ∨ 0xE000 ≤ n) :
    ∃ low high, utf8Lead? (0xE0 + n / 0x1000) = some (low, high, 2) ∧
      low ≤ 0x80 + n / 0x40 % 0x40 ∧ 0x80 + n / 0x40 % 0x40 ≤ high := by
  unfold utf8Lead?
  split_ifs
  all_goals first | omega | exact ⟨_, _, rfl, by omega, by omega⟩

/-- The lead byte of four admits the second byte of any code point. -/
theorem utf8Lead?_four {n : Nat} (h₁ : 0x10000 ≤ n) (h₂ : n < 0x110000) :
    ∃ low high, utf8Lead? (0xF0 + n / 0x40000) = some (low, high, 3) ∧
      low ≤ 0x80 + n / 0x1000 % 0x40 ∧ 0x80 + n / 0x1000 % 0x40 ≤ high := by
  unfold utf8Lead?
  split_ifs
  all_goals first | omega | exact ⟨_, _, rfl, by omega, by omega⟩

/-- **The bytes of a code point are read as the code point.** -/
theorem decodeFrom_utf8Bytes {n : Nat} (hn : n < 0x110000) (hs : n < 0xD800 ∨ 0xE000 ≤ n) (rest : List UInt8) :
    decodeFrom .between (utf8Bytes n ++ rest) = Symbol.ofCode n :: decodeFrom .between rest := by
  have htail : ∀ k, (0x80 + k % 0x40).toUInt8.toNat = 0x80 + k % 0x40 := fun k => toNat_toUInt8 (by omega)
  have hlast : ∀ (k bits : Nat), decodeFrom ⟨1, 0x80, 0xBF, bits⟩ ((0x80 + k % 0x40).toUInt8 :: rest) =
      Symbol.ofCode (bits * 0x40 + (0x80 + k % 0x40) % 0x40) :: decodeFrom .between rest := by
    intro k bits
    rw [decodeFrom_last (by rw [htail]; omega) (by rw [htail]; omega), htail]
  unfold utf8Bytes
  split_ifs with h₁ h₂ h₃
  · have hb : n.toUInt8.toNat = n := toNat_toUInt8 (by omega)
    rw [List.singleton_append, decodeFrom_ascii (by omega), hb]
  · have hb : (0xC0 + n / 0x40).toUInt8.toNat = 0xC0 + n / 0x40 := toNat_toUInt8 (by omega)
    rw [List.cons_append, decodeFrom_lead (by rw [hb]; exact utf8Lead?_two (by omega) h₂), hb,
      List.singleton_append, hlast, if_pos rfl]
    congr 2
    omega
  · have hb : (0xE0 + n / 0x1000).toUInt8.toNat = 0xE0 + n / 0x1000 := toNat_toUInt8 (by omega)
    obtain ⟨low, high, hlead, hlow, hhigh⟩ := utf8Lead?_three (by omega) h₃ hs
    rw [List.cons_append, decodeFrom_lead (by rw [hb]; exact hlead), hb, List.cons_append,
      decodeFrom_middle (by rw [htail]; exact hlow) (by rw [htail]; exact hhigh), htail, List.singleton_append, hlast,
      if_neg (by decide), if_pos rfl]
    congr 2
    omega
  · have hb : (0xF0 + n / 0x40000).toUInt8.toNat = 0xF0 + n / 0x40000 := toNat_toUInt8 (by omega)
    obtain ⟨low, high, hlead, hlow, hhigh⟩ := utf8Lead?_four (by omega) hn
    rw [List.cons_append, decodeFrom_lead (by rw [hb]; exact hlead), hb, List.cons_append,
      decodeFrom_middle (by rw [htail]; exact hlow) (by rw [htail]; exact hhigh), htail, List.cons_append,
      decodeFrom_middle (by rw [htail]; omega) (by rw [htail]; omega), htail, List.singleton_append, hlast,
      if_neg (by decide), if_neg (by decide)]
    congr 2
    omega

/-- The bytes of a character are read as the character. -/
theorem decodeFrom_char (c : Char) (rest : List UInt8) :
    decodeFrom .between (utf8Bytes c.toNat ++ rest) = .char c :: decodeFrom .between rest := by
  have hc := c.valid
  simp only [UInt32.isValidChar, Nat.isValidChar] at hc
  rw [decodeFrom_utf8Bytes (by simp only [Char.toNat]; omega) (by simp only [Char.toNat]; omega),
    Symbol.ofCode_toNat]

/-- **What was encoded is decoded again.** -/
theorem decode_encode {t : Text} {bytes : List UInt8} (h : encode t = .ok bytes) : decode bytes = t := by
  unfold encode at h
  split at h
  · cases h
  · rename_i hrun
    rw [unencodableRun?_eq_none_iff, isEncodable, List.all_eq_true] at hrun
    obtain rfl := Except.ok.inj h
    clear h
    show decodeFrom .between _ = t
    induction t with
    | nil => rfl
    | cons s t ih =>
      cases s with
      | char c =>
        rw [List.flatMap_cons, Symbol.code, decodeFrom_char, ih fun s hs => hrun s (List.mem_cons_of_mem _ hs)]
      | surrogate n => exact absurd (hrun _ List.mem_cons_self) Bool.false_ne_true

/-- A text without lone surrogates has bytes. -/
theorem encode_eq_ok {t : Text} (h : t.isEncodable = true) : encode t = .ok (t.flatMap fun s => utf8Bytes s.code) := by
  rw [encode, (unencodableRun?_eq_none_iff t).2 h]

end Text

end EventPipeline
