import EventPipeline.Proofs.Number.Layout

/-!
# Numerals that are read in a text

The readers of numerals differ in what they take for a digit, but all of them take the digits from `0` to
`9`. So what they have in common is said of any such `digit`: digits are taken as long as there are any,
an exponent that was written is read again (`readExponent_exponentPart`), and the parts of a numeral have
the value of its digits (`value_textOf`).
-/

namespace EventPipeline

/-- Characters as a text. -/
def textOf (cs : List Char) : Text := cs.map .char

namespace Binary64

variable {digit : Symbol → Bool}

/-- A run of digits that nothing prolongs is taken as a whole. -/
theorem takeWhile_run {ds rest : Text} (hd : ∀ s ∈ ds, digit s = true)
    (hr : ∀ s, rest.head? = some s → digit s = false) :
    (ds ++ rest).takeWhile digit = ds ∧ (ds ++ rest).dropWhile digit = rest := by
  induction ds with
  | nil =>
    cases rest with
    | nil => exact ⟨rfl, rfl⟩
    | cons s rest => simp [hr s rfl]
  | cons s ds ih =>
    obtain ⟨h₁, h₂⟩ := ih fun s hs => hd s (List.mem_cons_of_mem _ hs)
    simp [hd s List.mem_cons_self, h₁, h₂]

theorem forall_mem_textOf (hdigit : ∀ c : Char, c.isDigit = true → digit (.char c) = true) {cs : List Char}
    (h : ∀ c ∈ cs, c.isDigit = true) : ∀ s ∈ textOf cs, digit s = true := by
  intro s hs
  obtain ⟨c, hc, rfl⟩ := List.mem_map.1 hs
  exact hdigit c (h c hc)

/-- A text that does not start with the letter of an exponent has none. -/
theorem readExponent_none {rest : Text} (h : ∀ s, rest.head? = some s → s ≠ .char 'e' ∧ s ≠ .char 'E') :
    readExponent digit rest = (0, rest) := by
  rcases rest with _ | ⟨_ | _, rest⟩
  · rfl
  · rename_i c
    have hc := h _ rfl
    simp only [ne_eq, Symbol.char.injEq] at hc
    unfold readExponent
    dsimp only
    rw [if_neg (by tauto)]
  · rfl

/-- A written exponent is read again. -/
theorem readExponent_exponentPart (hdigit : ∀ c : Char, c.isDigit = true → digit (.char c) = true) {x : Int} {power : List Char} (hd : ∀ c ∈ power, c.isDigit = true) (hp : power ≠ [])
    (hx : Nat.ofDigitChars 10 power 0 = x.natAbs) {rest : Text}
    (hr : ∀ s, rest.head? = some s → digit s = false) :
    readExponent digit (textOf (exponentPart x power) ++ rest) = (x, rest) := by
  obtain ⟨h₁, h₂⟩ := takeWhile_run (forall_mem_textOf hdigit hd) hr
  have hv : digitsValue (textOf power) = x.natAbs := by
    rw [textOf, digitsValue_chars hd, hx]
  have hne : (textOf power).isEmpty = false := by simpa [textOf] using hp
  unfold exponentPart
  by_cases hneg : x < 0
  · rw [if_pos hneg]
    simp only [textOf, List.map_cons, List.cons_append] at h₁ h₂ hv hne ⊢
    rw [readExponent, if_pos (.inl rfl)]
    simp only [h₁, h₂, hv, hne, Bool.false_eq_true, if_false, if_true]
    rw [show -(x.natAbs : Int) = x by omega]
  · rw [if_neg hneg]
    simp only [textOf, List.map_cons, List.cons_append] at h₁ h₂ hv hne ⊢
    rw [readExponent, if_pos (.inl rfl)]
    simp only [h₁, h₂, hv, hne, Bool.false_eq_true, if_false]
    rw [show (x.natAbs : Int) = x by omega]

theorem digits_toDigits (n : Nat) : Digits (Nat.toDigits 10 n) := by
  refine ⟨fun _ => isDigit_of_mem_toDigits, Nat.toDigits_ne_nil, fun h => ?_⟩
  rcases Nat.eq_zero_or_pos n with rfl | hn
  · rfl
  · exact absurd h (head?_toDigits hn)

/-- Any unsigned number starts with a digit. -/
theorem exists_cons_of_parts {w f cs : List Char} {x : Int} (hp : Parts w f x cs) (hw : Digits w) :
    ∃ c t, textOf cs = .char c :: t ∧ c.isDigit = true := by
  obtain ⟨c, w, rfl⟩ := List.exists_cons_of_ne_nil hw.nonempty
  cases hp <;> exact ⟨c, _, rfl, hw.digits c List.mem_cons_self⟩

/-- The value of a numeral by its digits. -/
theorem value_textOf (negative : Bool) {w f : List Char} (hw : ∀ c ∈ w, c.isDigit = true)
    (hf : ∀ c ∈ f, c.isDigit = true) (x : Int) :
    Numeral.value negative ⟨textOf w, textOf f, x⟩ =
      ofDecimal negative (Nat.ofDigitChars 10 (w ++ f) 0) (x - f.length) := by
  rw [Numeral.value, textOf, textOf, ← List.map_append, digitsValue_chars, List.length_map]
  intro c hc
  rcases List.mem_append.1 hc with hc | hc
  · exact hw c hc
  · exact hf c hc

end Binary64

end EventPipeline
