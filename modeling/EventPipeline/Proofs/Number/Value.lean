import EventPipeline.Number.Basic
import Mathlib.Algebra.Order.Field.Rat
import Mathlib.Order.WithBot
import Mathlib.Tactic.Positivity

/-!
# The value of a number

Every number but one has an exact value, a rational number or an infinity (`value?`); the exception is what is no
number. A number compares with others by this value alone, whatever its kind (`equals_iff_value`).
-/

namespace EventPipeline

namespace Binary64

theorem compare?_swap (x y : Binary64) : (x.compare? y).map Ordering.swap = y.compare? x := by
  cases x with
  | nan => cases y <;> rfl
  | infinite s =>
    cases y with
    | nan => rfl
    | infinite t => cases s <;> cases t <;> rfl
    | finite t r => cases s <;> rfl
  | finite s q =>
    cases y with
    | nan => rfl
    | infinite t => cases t <;> rfl
    | finite t r => simp only [compare?, Option.map_some, Int.compare_swap]

end Binary64

namespace Number

/-- The exact value of a finite number in double precision. -/
def rational (negative : Bool) (rank : Nat) : ℚ :=
  (Binary64.signedUnits negative rank : ℚ) / Binary64.unitsPerOne

/-- The exact value of a number, which may be infinite; what is no number has none. -/
def value? : Number → Option (WithBot (WithTop ℚ))
  | .int n => some (WithBot.some (WithTop.some n))
  | .float .nan => none
  | .float (.infinite negative) => some (if negative then ⊥ else ⊤)
  | .float (.finite negative rank) => some (WithBot.some (WithTop.some (rational negative rank)))

theorem unitsPerOne_ne_zero : (Binary64.unitsPerOne : ℚ) ≠ 0 := by
  rw [Binary64.unitsPerOne]
  positivity

theorem rational_inj {s t : Bool} {q r : Nat} :
    rational s q = rational t r ↔ Binary64.signedUnits s q = Binary64.signedUnits t r := by
  rw [rational, rational, div_left_inj' unitsPerOne_ne_zero, Int.cast_inj]

theorem rational_eq_intCast {s : Bool} {q : Nat} {n : Int} :
    rational s q = n ↔ Binary64.signedUnits s q = n * Binary64.unitsPerOne := by
  rw [rational, div_eq_iff unitsPerOne_ne_zero, ← Int.cast_natCast (R := ℚ), ← Int.cast_mul, Int.cast_inj]

theorem compare?_eq_iff {x y : Binary64} (hx : value? (.float x) ≠ none) :
    x.compare? y = some .eq ↔ value? (.float x) = value? (.float y) := by
  cases x with
  | nan => exact absurd rfl hx
  | infinite s =>
    cases y with
    | nan => simp [Binary64.compare?, value?]
    | infinite t => cases s <;> cases t <;> simp [Binary64.compare?, value?]
    | finite t r => cases s <;> simp [Binary64.compare?, value?]
  | finite s q =>
    cases y with
    | nan => simp [Binary64.compare?, value?]
    | infinite t => cases t <;> simp [Binary64.compare?, value?]
    | finite t r => simp [Binary64.compare?, value?, rational_inj]

theorem compareInt?_eq_iff {x : Binary64} {n : Int} :
    x.compareInt? n = some .eq ↔ value? (.float x) = value? (.int n) := by
  cases x with
  | nan => simp [Binary64.compareInt?, value?]
  | infinite s => cases s <;> simp [Binary64.compareInt?, value?]
  | finite s q =>
    simp only [Binary64.compareInt?, value?, Option.some.injEq, compare_eq_iff_eq, WithBot.coe_inj, WithTop.coe_inj,
      rational_eq_intCast]

/-- Numbers are equal if their exact values are the same, whatever their kinds. -/
theorem equals_iff_value {m n : Number} (hm : m.value? ≠ none) : m.equals n = true ↔ m.value? = n.value? := by
  rw [equals, beq_iff_eq]
  cases m with
  | int k =>
    cases n with
    | int l => simp [compare?, value?]
    | float y =>
      have hswap : (y.compareInt? k).map Ordering.swap = some .eq ↔ y.compareInt? k = some .eq := by
        cases y.compareInt? k with
        | none => simp
        | some o => cases o <;> simp
      rw [compare?, hswap, compareInt?_eq_iff, eq_comm]
  | float x =>
    cases n with
    | int l => exact compareInt?_eq_iff
    | float y => exact compare?_eq_iff hm

theorem compare?_swap (m n : Number) : (m.compare? n).map Ordering.swap = n.compare? m := by
  cases m with
  | int k =>
    cases n with
    | int l => simp only [compare?, Option.map_some, Int.compare_swap]
    | float y => cases h : y.compareInt? k <;> simp [compare?, h]
  | float x =>
    cases n with
    | int l => rfl
    | float y => exact Binary64.compare?_swap x y

theorem equals_comm (m n : Number) : m.equals n = n.equals m := by
  have hswap : (m.compare? n).map Ordering.swap = some .eq ↔ m.compare? n = some .eq := by
    cases m.compare? n with
    | none => simp
    | some o => cases o <;> simp
  rw [equals, equals, Bool.eq_iff_iff, beq_iff_eq, beq_iff_eq, ← compare?_swap m n, hswap]

end Number

end EventPipeline
