import EventPipeline.Json.Printer
import EventPipeline.Json.Reader
import EventPipeline.Proofs.Number.Reading
import Mathlib.Tactic.FinCases

/-!
# Numbers in JSON text

A number that was written is read again, as long as nothing follows that could belong to it
(`readScalar_writeNumber`). Integers and double precision numbers stay apart: the text of a double
precision number has a point or an exponent.
-/

namespace EventPipeline

namespace Json

open Binary64 (Parts Digits Numeral fractionPart exponentPart takeWhile_run readExponent_none
  readExponent_exponentPart digits_toDigits exists_cons_of_parts)

/-! ### What may follow a number -/

/-- The text does not go on with a part of a number. -/
def EndsNumber (rest : Text) : Prop :=
  ∀ s, rest.head? = some s → s.isAsciiDigit = false ∧ s ≠ .char '.' ∧ s ≠ .char 'e' ∧ s ≠ .char 'E'

theorem isAsciiDigit_of_mem {cs : List Char} (h : ∀ c ∈ cs, c.isDigit = true) :
    ∀ s ∈ textOf cs, s.isAsciiDigit = true := Binary64.forall_mem_textOf (fun _ hc => hc) h

/-! ### Parts -/

theorem readWhole_append {w : List Char} (hw : Digits w) {rest : Text}
    (hr : ∀ s, rest.head? = some s → s.isAsciiDigit = false) :
    readWhole (textOf w ++ rest) = some (textOf w, rest) := by
  obtain ⟨c, cs, rfl⟩ := List.exists_cons_of_ne_nil hw.nonempty
  by_cases h0 : c = '0'
  · have h := hw.lead (by rw [h0]; rfl)
    rw [h]
    rfl
  · have hc : (Symbol.char c).isAsciiDigit = true := hw.digits c List.mem_cons_self
    obtain ⟨h₁, h₂⟩ := takeWhile_run (isAsciiDigit_of_mem hw.digits) hr
    have hne : Symbol.char c ≠ .char '0' := fun h => h0 (Symbol.char.inj h)
    simp only [textOf, List.map_cons, List.cons_append] at h₁ h₂ ⊢
    rw [readWhole]
    · rw [if_pos hc, h₁, h₂]
    · exact fun h => absurd h hne

/-! ### Whole numbers and numerals -/

/-- The sign of a number, as it is written. -/
def signText (negative : Bool) : Text := if negative then "-" else ""

theorem readNumber?_sign (negative : Bool) {c : Char} (hc : c.isDigit = true) (t : Text) :
    readNumber? (signText negative ++ .char c :: t) = readUnsigned? negative (.char c :: t) := by
  cases negative with
  | true => rfl
  | false =>
    have hne : c ≠ '-' := by
      rintro rfl
      exact absurd hc (by decide)
    show readNumber? (.char c :: t) = _
    rw [readNumber?]
    rintro _ h
    exact hne (Symbol.char.inj (List.cons.inj h).1)

theorem readFraction_none {rest : Text} (h : ∀ s, rest.head? = some s → s ≠ .char '.') :
    readFraction rest = ([], rest) := by
  rw [readFraction]
  rintro r rfl
  exact h _ rfl rfl

theorem readFraction_append {f : List Char} (hf : ∀ c ∈ f, c.isDigit = true) (hne : f ≠ []) {rest : Text}
    (hr : ∀ s, rest.head? = some s → s.isAsciiDigit = false) :
    readFraction (.char '.' :: textOf f ++ rest) = (textOf f, rest) := by
  obtain ⟨h₁, h₂⟩ := takeWhile_run (isAsciiDigit_of_mem hf) hr
  have hemp : (textOf f).isEmpty = false := by simpa [textOf] using hne
  simp only [readFraction, List.cons_append, h₁, h₂, hemp, Bool.false_eq_true, if_false]

theorem readUnsigned?_eq (negative : Bool) {t w f r₁ r₂ r₃ : Text} {x : Int} (hw : readWhole t = some (w, r₁))
    (hf : readFraction r₁ = (f, r₂)) (hx : Binary64.readExponent Symbol.isAsciiDigit r₂ = (x, r₃)) :
    readUnsigned? negative t =
      if f = [] ∧ r₃.length = r₂.length then
        some (.int (if negative then -(digitsValue w : Int) else digitsValue w), r₂)
      else some (.float (Numeral.value negative ⟨w, f, x⟩), r₃) := by
  simp only [readUnsigned?, hw, hf, hx, Option.bind_eq_bind, Option.bind_some, Bool.and_eq_true, List.isEmpty_iff,
    beq_iff_eq]
  rfl

/-- What follows an integer part is neither a fraction nor an exponent. -/
theorem readUnsigned?_int (negative : Bool) {w : List Char} (hw : Digits w) {rest : Text} (hr : EndsNumber rest) :
    readUnsigned? negative (textOf w ++ rest) =
      some (.int (if negative then -(digitsValue (textOf w) : Int) else digitsValue (textOf w)), rest) := by
  have h₁ := readWhole_append hw fun s hs => (hr s hs).1
  rw [readUnsigned?_eq negative h₁ (readFraction_none fun s hs => (hr s hs).2.1)
    (readExponent_none fun s hs => (hr s hs).2.2), if_pos ⟨rfl, rfl⟩]

/-- The parts of a numeral are found again. -/
theorem readUnsigned?_parts (negative : Bool) {w f cs : List Char} {x : Int} (hp : Parts w f x cs) (hw : Digits w)
    (hf : ∀ c ∈ f, c.isDigit = true) {rest : Text} (hr : EndsNumber rest) :
    readUnsigned? negative (textOf cs ++ rest) =
      some (.float (Numeral.value negative ⟨textOf w, textOf f, x⟩), rest) := by
  cases hp with
  | plain hne =>
    have htext : textOf (w ++ '.' :: f) ++ rest = textOf w ++ (.char '.' :: textOf f ++ rest) := by
      simp [textOf]
    have hpoint : ∀ s, (.char '.' :: textOf f ++ rest).head? = some s → s.isAsciiDigit = false := fun s hs => by
      cases hs
      rfl
    have h₁ := readWhole_append hw hpoint
    rw [htext, readUnsigned?_eq negative h₁ (readFraction_append hf hne fun s hs => (hr s hs).1)
      (readExponent_none fun s hs => (hr s hs).2.2), if_neg]
    simp [textOf, hne]
  | scientific x power hd hpow hx =>
    have htext : textOf (w ++ fractionPart f ++ exponentPart x power) ++ rest =
        textOf w ++ (textOf (fractionPart f) ++ (textOf (exponentPart x power) ++ rest)) := by
      simp [textOf]
    have hlen : rest.length ≠ (textOf (exponentPart x power) ++ rest).length := by
      rw [List.length_append, textOf, List.length_map, exponentPart, List.length_cons]
      omega
    have hexp := readExponent_exponentPart (fun _ hc => hc) hd hpow hx fun s hs => (hr s hs).1
    have hhead : ∀ s, (textOf (exponentPart x power) ++ rest).head? = some s → s = .char 'e' := by
      rintro s hs
      exact (Option.some.inj hs).symm
    generalize textOf (exponentPart x power) ++ rest = tail at *
    have hdigit : ∀ s, tail.head? = some s → s.isAsciiDigit = false := fun s hs => by
      rw [hhead s hs]
      rfl
    by_cases hne : f = []
    · subst hne
      have h₁ := readWhole_append hw hdigit
      have h₂ : readFraction tail = ([], tail) := readFraction_none fun s hs => by
        rw [hhead s hs]
        decide
      rw [htext, fractionPart, if_pos rfl]
      exact (readUnsigned?_eq negative h₁ h₂ hexp).trans (if_neg fun h => hlen h.2)
    · have hpoint : ∀ s, (.char '.' :: textOf f ++ tail).head? = some s → s.isAsciiDigit = false := fun s hs => by
        cases hs
        rfl
      have h₁ := readWhole_append hw hpoint
      rw [htext, fractionPart, if_neg hne]
      exact (readUnsigned?_eq negative h₁ (readFraction_append hf hne hdigit) hexp).trans (if_neg fun h => hlen h.2)

/-! ### Numbers -/

theorem after?_cons_ne {s r : Symbol} (h : r ≠ s) (t lead : Text) : Text.after? (s :: t) (r :: lead) = none := by
  simp [Text.after?, List.isPrefixOf, h]

theorem after?_cons_self (s : Symbol) (t lead : Text) : Text.after? (s :: t) (s :: lead) = Text.after? t lead := by
  simp [Text.after?, List.isPrefixOf]

/-- No word starts like a number. -/
theorem readWord?_sign (negative : Bool) {c : Char} (hc : c.isDigit = true) (t : Text) :
    readWord? (signText negative ++ .char c :: t) = none := by
  have hne : ∀ d : Char, d.isDigit = false → Symbol.char d ≠ .char c := by
    rintro d hd h
    rw [Symbol.char.inj h, hc] at hd
    cases hd
  rw [readWord?, List.findSome?_eq_none_iff]
  intro word hword
  rw [Option.map_eq_none_iff]
  cases negative with
  | false =>
    show Text.after? (.char c :: t) _ = none
    fin_cases hword <;> exact after?_cons_ne (hne _ rfl) _ _
  | true =>
    show Text.after? (.char '-' :: .char c :: t) _ = none
    fin_cases hword
    iterate 5 exact after?_cons_ne (by decide) _ _
    exact (after?_cons_self _ _ _).trans (after?_cons_ne (hne _ rfl) _ _)

/-- A scalar that starts like a number is a number. -/
theorem readScalar_sign (negative : Bool) {c : Char} (hc : c.isDigit = true) {t rest : Text} {n : Number}
    (h : readUnsigned? negative (.char c :: t) = some (n, rest)) :
    readScalar (signText negative ++ .char c :: t) = .ok (.number n, rest) := by
  have hquote : ∀ r, signText negative ++ .char c :: t = .char '"' :: r → False := by
    rintro r hr
    cases negative with
    | true => exact absurd (List.cons.inj hr).1 (by decide)
    | false =>
      rw [Symbol.char.inj (List.cons.inj hr).1] at hc
      exact absurd hc (by decide)
  rw [readScalar, readWord?_sign negative hc, readNumber?_sign negative hc, h]
  exact hquote

/-- What a written number starts with. -/
theorem exists_cons_writeNumber (n : Number) :
    ∃ c t, writeNumber n = .char c :: t ∧ (c.isDigit = true ∨ c = '-' ∨ c = 'N' ∨ c = 'I') := by
  have hnat : ∀ k : ℕ, ∃ c t, Text.ofNat k = .char c :: t ∧ c.isDigit = true := by
    intro k
    obtain ⟨c, cs, hcs⟩ := List.exists_cons_of_ne_nil (Nat.toDigits_ne_nil (n := k) (b := 10))
    exact ⟨c, _, by rw [Text.ofNat, hcs, List.map_cons], isDigit_of_mem_toDigits (hcs ▸ List.mem_cons_self)⟩
  rcases n with (k | k) | (_ | s | ⟨s, r⟩)
  · obtain ⟨c, t, h, hc⟩ := hnat k
    exact ⟨c, t, h, .inl hc⟩
  · exact ⟨_, _, rfl, .inr (.inl rfl)⟩
  · exact ⟨_, _, rfl, .inr (.inr (.inl rfl))⟩
  · cases s
    · exact ⟨_, _, rfl, .inr (.inr (.inr rfl))⟩
    · exact ⟨_, _, rfl, .inr (.inl rfl)⟩
  · cases s
    · obtain ⟨w, f, x, hp, hw, -⟩ := Binary64.parts_magnitude false r
      obtain ⟨c, t, h, hc⟩ := exists_cons_of_parts hp hw
      exact ⟨c, t, h, .inl hc⟩
    · exact ⟨_, _, rfl, .inr (.inl rfl)⟩

/-- **A number that was written is read again.** -/
theorem readScalar_writeNumber (n : Number) {rest : Text} (hr : EndsNumber rest) :
    readScalar (writeNumber n ++ rest) = .ok (.number n, rest) := by
  have hint : ∀ (negative : Bool) (k : ℕ), readScalar (signText negative ++ Text.ofNat k ++ rest) =
      .ok (.number (.int (if negative then -(k : Int) else k)), rest) := by
    intro negative k
    have h := readUnsigned?_int negative (digits_toDigits k) hr
    obtain ⟨c, cs, hcs⟩ := List.exists_cons_of_ne_nil (Nat.toDigits_ne_nil (n := k) (b := 10))
    have hc : c.isDigit = true := isDigit_of_mem_toDigits (hcs ▸ List.mem_cons_self)
    have htext : Text.ofNat k = textOf (Nat.toDigits 10 k) := rfl
    rw [← htext, digitsValue_ofNat] at h
    rw [htext, hcs] at h ⊢
    rw [List.append_assoc]
    exact readScalar_sign negative hc h
  rcases n with (k | k) | (_ | s | ⟨s, r⟩)
  · exact hint false k
  · exact hint true (k + 1)
  · rfl
  · cases s <;> rfl
  · obtain ⟨w, f, x, hp, hw, hf, hval⟩ := Binary64.parts_magnitude s r
    have h := readUnsigned?_parts s hp hw hf hr
    have hv : Numeral.value s ⟨textOf w, textOf f, x⟩ = .finite s r :=
      (Binary64.value_textOf s hw.digits hf x).trans hval
    obtain ⟨c, t, hct, hc⟩ := exists_cons_of_parts hp hw
    rw [hv, hct] at h
    have htext : writeNumber (.float (.finite s r)) ++ rest = signText s ++ .char c :: (t ++ rest) := by
      rw [writeNumber, Binary64.toText, ← textOf, hct]
      · cases s <;> rfl
      · intro h
        cases h
      · intro b h
        cases h
    rw [htext]
    exact readScalar_sign s hc h

end Json

end EventPipeline
