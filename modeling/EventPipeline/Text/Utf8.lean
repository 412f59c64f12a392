import EventPipeline.Text.Basic

/-!
# UTF-8

The bytes of a text. A run of lone surrogates has no UTF-8 form; the first such run is the reason
why a text is refused. Bytes that are no UTF-8 are read as replacement characters, one for each
maximal start of a well-formed sequence.
-/

namespace EventPipeline

namespace Text

/-- The bytes of a code point. -/
def utf8Bytes (n : Nat) : List UInt8 :=
  if n < 0x80 then [n.toUInt8]
  else if n < 0x800 then [(0xC0 + n / 0x40).toUInt8, (0x80 + n % 0x40).toUInt8]
  else if n < 0x10000 then
    [(0xE0 + n / 0x1000).toUInt8, (0x80 + n / 0x40 % 0x40).toUInt8, (0x80 + n % 0x40).toUInt8]
  else
    [(0xF0 + n / 0x40000).toUInt8, (0x80 + n / 0x1000 % 0x40).toUInt8, (0x80 + n / 0x40 % 0x40).toUInt8,
     (0x80 + n % 0x40).toUInt8]

/-- The first run of symbols without a UTF-8 form. -/
structure UnencodableRun where
  /-- Position of its first symbol. -/
  start : Nat
  /-- Its first symbol. -/
  first : Symbol
  /-- Its length, which is not zero. -/
  length : Nat
  deriving DecidableEq

/-- The first run of lone surrogates of a text, if it has one. -/
def unencodableRun? (t : Text) : Option UnencodableRun :=
  match t.dropWhile Symbol.isEncodable with
  | [] => none
  | first :: rest =>
    some ⟨(t.takeWhile Symbol.isEncodable).length, first,
      (rest.takeWhile (!·.isEncodable)).length + 1⟩

/-- The bytes of a text, or the first run that has none. -/
def encode (t : Text) : Except UnencodableRun (List UInt8) :=
  match unencodableRun? t with
  | some run => .error run
  | none => .ok (t.flatMap fun s => utf8Bytes s.code)

theorem unencodableRun?_eq_none_iff (t : Text) : unencodableRun? t = none ↔ t.isEncodable = true := by
  unfold unencodableRun? isEncodable
  induction t with
  | nil => simp
  | cons c t ih =>
    cases h : c.isEncodable
    · simp [h]
    · simp only [List.dropWhile_cons, h, if_true, List.all_cons, Bool.true_and]
      rw [← ih]
      split <;> simp

/-- The range of the second byte that a lead byte admits, and how many bytes follow the lead. -/
def utf8Lead? (b : Nat) : Option (Nat × Nat × Nat) :=
  if 0xC2 ≤ b ∧ b ≤ 0xDF then some (0x80, 0xBF, 1)
  else if b = 0xE0 then some (0xA0, 0xBF, 2)
  else if b = 0xED then some (0x80, 0x9F, 2)
  else if 0xE1 ≤ b ∧ b ≤ 0xEF then some (0x80, 0xBF, 2)
  else if b = 0xF0 then some (0x90, 0xBF, 3)
  else if b = 0xF4 then some (0x80, 0x8F, 3)
  else if 0xF1 ≤ b ∧ b ≤ 0xF3 then some (0x80, 0xBF, 3)
  else none

/-- Where the decoder stands: between characters, or inside one. -/
structure Utf8State where
  /-- Bytes still owed by the character that was begun. -/
  owed : Nat
  /-- Least value of the next byte. -/
  low : Nat
  /-- Greatest value of the next byte. -/
  high : Nat
  /-- Bits read so far. -/
  bits : Nat

/-- Decodes bytes from a given state on. -/
def decodeFrom : Utf8State → List UInt8 → Text
  | st, [] => if st.owed = 0 then [] else [.char '\uFFFD']
  | st, byte :: bytes =>
    let b := byte.toNat
    if st.owed ≠ 0 ∧ st.low ≤ b ∧ b ≤ st.high then
      let bits := st.bits * 0x40 + b % 0x40
      if st.owed = 1 then Symbol.ofCode bits :: decodeFrom ⟨0, 0, 0, 0⟩ bytes
      else decodeFrom ⟨st.owed - 1, 0x80, 0xBF, bits⟩ bytes
    else
      let broken : Text := if st.owed = 0 then [] else [.char '\uFFFD']
      broken ++
        if b < 0x80 then Symbol.ofCode b :: decodeFrom ⟨0, 0, 0, 0⟩ bytes
        else match utf8Lead? b with
          | some (low, high, owed) =>
            decodeFrom ⟨owed, low, high, b % (if owed = 1 then 0x20 else if owed = 2 then 0x10 else 0x08)⟩ bytes
          | none => .char '\uFFFD' :: decodeFrom ⟨0, 0, 0, 0⟩ bytes

/-- The text of bytes, broken sequences replaced. -/
def decode (bytes : List UInt8) : Text :=
  decodeFrom ⟨0, 0, 0, 0⟩ bytes

example : decode [0x61, 0xC3, 0xA9, 0xFF, 0xE2, 0x82, 0x41] = "aé\uFFFD\uFFFDA" := by decide

end Text

end EventPipeline
