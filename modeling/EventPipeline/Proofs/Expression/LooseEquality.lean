import EventPipeline.Proofs.Expression.StrictEquality

/-!
# Loose equality

Loose equality is a formula here: two values are the same, or they are the same once truth values have become zero and
one, or one of them is then a number and the other a text that writes it. It can be read as a comparison that starts
again as soon as it has converted a truth value, on the left first (`nextLoose`); that comparison always ends, after
three rounds at the latest, with the answer of the formula (`looseRounds_eq`). Both equalities are symmetric, which for
nested objects needs that no key stands twice in one of them, and they differ on a few pairs of kinds only
(`looselyEquals_laws`).
-/

namespace EventPipeline

/-! ### Equality by value is symmetric -/

namespace Value

mutual

theorem equals_symm : ∀ {v w : Value}, v.isJson = true → w.isJson = true → v.equals w = true → w.equals v = true
  | .array vs, w, hv, hw, h => by
    cases w with
    | array ws => exact @equalsItems_symm vs ws hv hw h
    | _ => simp [equals, asNumber?] at h
  | .object fs, w, hv, hw, h => by
    cases w with
    | object gs =>
      have hfs := haveJson_iff.1 hv
      have hgs := haveJson_iff.1 hw
      obtain ⟨hkeys, hvalues⟩ := (equals_object_iff hfs.1 hgs.1).1 h
      refine (equals_object_iff hgs.1 hfs.1).2 ⟨fun k => (hkeys k).symm, fun k w v hw hv => ?_⟩
      exact symm_of_mem (Table.mem_of_find? hv) (hfs.2 _ (Table.mem_of_find? hv)).2 (hgs.2 _ (Table.mem_of_find? hw)).2
        (hvalues k v w hv hw)
    | _ => simp [equals, asNumber?] at h
  | .null, w, _, _, h => by cases w <;> simp_all [equals, asNumber?]
  | .text s, w, _, _, h => by cases w <;> simp_all [equals, asNumber?]
  | .bool p, w, _, _, h => by cases w <;> simp_all [equals, asNumber?, Number.equals_comm]
  | .number n, w, _, _, h => by cases w <;> simp_all [equals, asNumber?, Number.equals_comm]

theorem equalsItems_symm : ∀ {vs ws : List Value}, areJson vs = true → areJson ws = true →
    equalsItems vs ws = true → equalsItems ws vs = true
  | [], ws, _, _, h => by cases ws <;> simp_all [equalsItems]
  | v :: vs, ws, hv, hw, h => by
    cases ws with
    | nil => simp [equalsItems] at h
    | cons w ws =>
      simp only [equalsItems, areJson, Bool.and_eq_true] at hv hw h ⊢
      exact ⟨equals_symm hv.1 hw.1 h.1, equalsItems_symm hv.2 hw.2 h.2⟩

/-- The same for the values of fields. -/
theorem symm_of_mem : ∀ {fs : List (Key × Value)} {k : Key} {v w : Value}, (k, v) ∈ fs → v.isJson = true →
    w.isJson = true → v.equals w = true → w.equals v = true
  | [], _, _, _, hmem, _, _, _ => by cases hmem
  | (j, u) :: fs, k, v, w, hmem, hv, hw, h => by
    rcases List.mem_cons.1 hmem with heq | hmem
    · cases heq
      exact equals_symm hv hw h
    · exact symm_of_mem hmem hv hw h

end

theorem equals_comm {v w : Value} (hv : v.isJson = true) (hw : w.isJson = true) : v.equals w = w.equals v :=
  Bool.eq_iff_iff.2 ⟨equals_symm hv hw, equals_symm hw hv⟩

end Value

namespace Expression

open Value

/-! ### Both equalities are symmetric -/

theorem truthAndNumber_comm {v w : Value} : TruthAndNumber v w ↔ TruthAndNumber w v := by
  cases v <;> cases w <;> rfl

theorem strictlyEquals_comm {a b : Value} (ha : a.isJson = true) (hb : b.isJson = true) :
    strictlyEquals a b = strictlyEquals b a := by
  rw [Bool.eq_iff_iff, strictlyEquals_iff, strictlyEquals_iff, Value.equals_comm ha hb, truthAndNumber_comm]

theorem isJson_unboolean {v : Value} (h : v.isJson = true) : (unboolean v).isJson = true := by
  cases v <;> exact h

theorem numeralEquals_comm (a b : Value) : numeralEquals a b = numeralEquals b a := by
  cases a <;> cases b <;> rfl

theorem looselyEquals_comm {a b : Value} (ha : a.isJson = true) (hb : b.isJson = true) :
    looselyEquals a b = looselyEquals b a := by
  rw [looselyEquals, looselyEquals, strictlyEquals_comm ha hb,
    strictlyEquals_comm (isJson_unboolean ha) (isJson_unboolean hb), numeralEquals_comm]

/-! ### Conversions -/

theorem unboolean_unboolean (v : Value) : unboolean (unboolean v) = unboolean v := by
  cases v <;> rfl

/-- Equality by value already counts truth values as zero and one. -/
theorem looselyEquals_eq (a b : Value) :
    looselyEquals a b = (a.equals b || numeralEquals (unboolean a) (unboolean b)) := by
  have hstrict : strictlyEquals a b = true → a.equals b = true := fun h => (strictlyEquals_iff.1 h).1
  rw [looselyEquals, ← equals_eq_strictlyEquals, Bool.or_eq_right_iff_imp.2 hstrict]

theorem equals_unboolean_left (a b : Value) : (unboolean a).equals b = a.equals b := by
  rw [equals_eq_strictlyEquals, equals_eq_strictlyEquals, unboolean_unboolean]

theorem equals_unboolean_right (a b : Value) : a.equals (unboolean b) = a.equals b := by
  rw [equals_eq_strictlyEquals, equals_eq_strictlyEquals, unboolean_unboolean]

/-- A truth value on the left may be replaced by zero or one. -/
theorem looselyEquals_unboolean_left (a b : Value) : looselyEquals (unboolean a) b = looselyEquals a b := by
  rw [looselyEquals_eq, looselyEquals_eq, equals_unboolean_left, unboolean_unboolean]

/-- A truth value on the right may be replaced by zero or one. -/
theorem looselyEquals_unboolean_right (a b : Value) : looselyEquals a (unboolean b) = looselyEquals a b := by
  rw [looselyEquals_eq, looselyEquals_eq, equals_unboolean_right, unboolean_unboolean]

/-- Pairs of kinds between which loose equality converts: a number and a text, a truth value and either of them. -/
def Convertible : Value → Value → Prop
  | .number _, .text _ | .text _, .number _ => True
  | .bool _, .number _ | .number _, .bool _ | .bool _, .text _ | .text _, .bool _ => True
  | _, _ => False

theorem convertible_of_truthAndNumber {a b : Value} (h : TruthAndNumber a b) : Convertible a b := by
  cases a <;> cases b <;> first | exact trivial | exact h

theorem numeralEquals_of_not_convertible {a b : Value} (h : ¬ Convertible a b) :
    numeralEquals (unboolean a) (unboolean b) = false := by
  cases a <;> cases b <;> first | rfl | exact absurd trivial h

/-- Where nothing is converted the two equalities agree. -/
theorem looselyEquals_of_not_convertible {a b : Value} (h : ¬ Convertible a b) :
    looselyEquals a b = strictlyEquals a b := by
  have hapart : ¬ TruthAndNumber a b := mt convertible_of_truthAndNumber h
  rw [looselyEquals_eq, numeralEquals_of_not_convertible h, Bool.or_false, Bool.eq_iff_iff, strictlyEquals_iff,
    and_iff_left hapart]

/-! ### The comparison in rounds -/

/-- The pair with one truth value converted, the left one first; a null is compared as it is. -/
def convertOne? : Value → Value → Option (Value × Value)
  | .null, _ | _, .null => none
  | .bool p, b => some (unboolean (.bool p), b)
  | a, .bool q => some (a, unboolean (.bool q))
  | _, _ => none

/-- One round of the comparison: its answer, or the pair with which it starts again. -/
def nextLoose (a b : Value) : Bool ⊕ Value × Value :=
  if strictlyEquals a b then .inl true
  else match convertOne? a b with
    | some pair => .inr pair
    | none => .inl (numeralEquals a b)

/-- The answer of the comparison, if it comes in so many rounds. -/
def looseRounds : Nat → Value → Value → Option Bool
  | 0, _, _ => none
  | rounds + 1, a, b =>
    match nextLoose a b with
    | .inl answer => some answer
    | .inr (c, d) => looseRounds rounds c d

/-- How many of two values are truth values. -/
def truthValues : Value → Value → Nat
  | .bool _, .bool _ => 2
  | .bool _, _ | _, .bool _ => 1
  | _, _ => 0

theorem truthValues_le (a b : Value) : truthValues a b ≤ 2 := by
  cases a <;> cases b <;> simp [truthValues]

/-- A conversion leaves fewer truth values and does not change what the formula says. -/
theorem convertOne?_some {a b c d : Value} (h : convertOne? a b = some (c, d)) :
    looselyEquals c d = looselyEquals a b ∧ truthValues c d < truthValues a b := by
  cases a with
  | null => cases h
  | bool p =>
    cases b with
    | null => cases h
    | _ =>
      cases h
      exact ⟨looselyEquals_unboolean_left _ _, by simp [truthValues, unboolean, Value.int]⟩
  | _ =>
    cases b with
    | bool q =>
      cases h
      exact ⟨looselyEquals_unboolean_right _ _, by simp [truthValues, unboolean, Value.int]⟩
    | _ => cases h

/-- Where there is nothing to convert, a number and a text are left to compare. -/
theorem convertOne?_none {a b : Value} (hnone : convertOne? a b = none) (hstrict : strictlyEquals a b = false) :
    looselyEquals a b = numeralEquals a b := by
  by_cases h : Convertible a b
  · cases a <;> cases b <;> first | exact absurd h not_false | rfl | cases hnone
  · have hnumeral : numeralEquals a b = false := by
      cases a <;> cases b <;> first | rfl | exact absurd trivial h
    rw [looselyEquals_of_not_convertible h, hstrict, hnumeral]

/-- **The comparison in rounds ends**, with the answer of the formula: each round but the last one takes away a truth
value. -/
theorem looseRounds_eq {rounds : Nat} {a b : Value} (h : truthValues a b < rounds) :
    looseRounds rounds a b = some (looselyEquals a b) := by
  induction rounds generalizing a b with
  | zero => exact absurd h (Nat.not_lt_zero _)
  | succ rounds ih =>
    cases hstrict : strictlyEquals a b with
    | true => simp [looseRounds, nextLoose, looselyEquals, hstrict]
    | false =>
      cases hconvert : convertOne? a b with
      | none => simp [looseRounds, nextLoose, hstrict, hconvert, convertOne?_none hconvert hstrict]
      | some pair =>
        obtain ⟨hsame, hfewer⟩ := convertOne?_some hconvert
        simp [looseRounds, nextLoose, hstrict, hconvert, ih (show truthValues pair.1 pair.2 < rounds by omega), hsame]

/-- **The laws of loose equality** on JSON values. The comparison in rounds ends, whatever the values. Both equalities
are symmetric and the strict one implies the loose one. They differ on convertible pairs at most, and a truth value on
either side may be replaced by zero or one. -/
theorem looselyEquals_laws {a b : Value} (ha : a.isJson = true) (hb : b.isJson = true) :
    (∀ rounds, 3 ≤ rounds → looseRounds rounds a b = some (looselyEquals a b)) ∧
    looselyEquals a b = looselyEquals b a ∧
    strictlyEquals a b = strictlyEquals b a ∧
    (strictlyEquals a b = true → looselyEquals a b = true) ∧
    (looselyEquals a b ≠ strictlyEquals a b → Convertible a b) ∧
    looselyEquals (unboolean a) b = looselyEquals a b ∧
    looselyEquals a (unboolean b) = looselyEquals a b := by
  refine ⟨fun rounds h => looseRounds_eq (Nat.lt_of_le_of_lt (truthValues_le a b) h), looselyEquals_comm ha hb,
    strictlyEquals_comm ha hb, fun h => ?_, ?_, looselyEquals_unboolean_left a b, looselyEquals_unboolean_right a b⟩
  · rw [looselyEquals, h, Bool.true_or, Bool.true_or]
  · exact fun h => by_contra fun hnot => h (looselyEquals_of_not_convertible hnot)

/-- A truth value against a text that writes one, and objects that hold a truth value and a number under two keys. -/
theorem looselyEquals_laws_converted :
    (looseRounds 3 (.bool true) (.text " 1.0 ") = some true ∧ looselyEquals (.text " 1.0 ") (.bool true) = true ∧
      strictlyEquals (.bool true) (.text " 1.0 ") = false ∧ Convertible (.bool true) (.text " 1.0 ")) ∧
    looselyEquals (.object [("a", .bool true), ("b", .int 0)]) (.object [("b", .bool false), ("a", .int 1)]) =
      looselyEquals (.object [("b", .bool false), ("a", .int 1)]) (.object [("a", .bool true), ("b", .int 0)]) := by
  have hequal : looselyEquals (.bool true) (.text " 1.0 ") = true := by decide +kernel
  have hapart : strictlyEquals (.bool true) (.text " 1.0 ") = false := rfl
  obtain ⟨hends, hsymm, -, -, hdiffer, -, -⟩ :=
    looselyEquals_laws (a := .bool true) (b := .text " 1.0 ") rfl rfl
  refine ⟨⟨?_, ?_, hapart, hdiffer ?_⟩, (looselyEquals_laws (by decide) (by decide)).2.1⟩
  · rw [hends 3 le_rfl, hequal]
  · rw [← hsymm, hequal]
  · rw [hequal, hapart]
    decide

end Expression

end EventPipeline
