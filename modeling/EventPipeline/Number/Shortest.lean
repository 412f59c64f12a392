import EventPipeline.Number.Binary64
import EventPipeline.Text.Basic

/-!
# Shortest decimal text

A finite number is written with the fewest decimal digits that read back as the same number; of
two such decimals of one length the nearer one is taken, and on a tie the one with an even last
digit. The text is positional for decimal exponents from -4 to 15 and scientific otherwise.
-/

namespace EventPipeline

-- Powers of natural numbers are the core library's, whatever else is imported.
attribute [local instance (high)] instPowNat

namespace Binary64

/-! ### Digits -/

/-- A decimal number `digits * 10 ^ exponent`. -/
structure Decimal where
  /-- All digits, as one number. -/
  digits : Nat
  /-- The power of ten of the last digit. -/
  exponent : Int
  deriving DecidableEq

/-- The fraction `num / den` that is `n / d * 10 ^ k`. -/
def shiftDecimal (n d : Nat) : Int → Nat × Nat
  | .ofNat k => (n * 10 ^ k, d)
  | .negSucc k => (n, d * 10 ^ (k + 1))

/-- The decimal reads back as the number of the given rank. -/
def readsBack (rank : Nat) (d : Decimal) : Bool :=
  let (num, den) := shiftDecimal (d.digits * unitsPerOne) 1 d.exponent
  nearestRank num den == rank

/-- The exponent of the first decimal digit of `num / den`, which is not zero. -/
def leadingExponent (num den : Nat) : Int :=
  if den ≤ num then (Nat.toDigits 10 (num / den)).length - 1
  else
    let n := (Nat.toDigits 10 (den / num)).length
    if den = num * 10 ^ (n - 1) then -((n : Int) - 1) else -(n : Int)

/-- The number of a rank as a multiple of a power of ten, a fraction. -/
def multiple (rank : Nat) (exponent : Int) : Nat × Nat := shiftDecimal (units rank) unitsPerOne (-exponent)

/-- The digits of the decimal below the number, or at it, with the given last exponent. -/
def digitsBelow (rank : Nat) (exponent : Int) : Nat := (multiple rank exponent).1 / (multiple rank exponent).2

/-- The digits of the decimal nearest to the number with the given last exponent. -/
def digitsNearest (rank : Nat) (exponent : Int) : Nat :=
  nearestQuotient (multiple rank exponent).1 (multiple rank exponent).2

/-- The digits to take, given whether those below and those above the number read back. -/
def chooseDigits (below nearest : Nat) : Bool → Bool → Option Nat
  | true, true => some nearest
  | true, false => some below
  | false, true => some (below + 1)
  | false, false => none

/-- Of the two decimals around the number with the given last exponent, the one that reads back. -/
def decimalAt? (rank : Nat) (exponent : Int) : Option Decimal :=
  (chooseDigits (digitsBelow rank exponent) (digitsNearest rank exponent)
    (readsBack rank ⟨digitsBelow rank exponent, exponent⟩)
    (readsBack rank ⟨digitsBelow rank exponent + 1, exponent⟩)).map fun digits => ⟨digits, exponent⟩

/-- The first decimal found when the last exponent goes down from `exponent`, at most `steps`
times. Seventeen digits always suffice. -/
def searchDecimal (rank : Nat) (exponent : Int) : Nat → Decimal
  | 0 => ⟨units rank, 0⟩
  | steps + 1 => (decimalAt? rank exponent).getD (searchDecimal rank (exponent - 1) steps)

/-- The shortest decimal of a rank. -/
def shortest (rank : Nat) : Decimal :=
  if rank = 0 then ⟨0, 0⟩
  else searchDecimal rank (leadingExponent (units rank) unitsPerOne) 17

/-! ### Layout -/

/-- How numbers are laid out. -/
structure Layout where
  /-- Least exponent of the first digit that is written positionally. -/
  leastPositional : Int
  /-- Least exponent of the first digit that is written scientifically again. -/
  leastScientific : Int
  /-- Least number of digits of a written exponent. -/
  exponentWidth : Nat

/-- Positional from `0.0001` up to below `1e+16`; exponents have at least two digits. -/
def layout : Layout := ⟨-4, 16, 2⟩

/-- A digit list without zeros at its end. -/
def trimZeros (ds : List Char) : List Char :=
  (ds.reverse.dropWhile (· == '0')).reverse

/-- Digits with a point after the first of them, if there are more. -/
def mantissa : List Char → List Char
  | [] => []
  | [d] => [d]
  | d :: rest => d :: '.' :: rest

/-- A magnitude with the given significant digits, the first of them at `exponent`. -/
def Layout.lay (l : Layout) (ds : List Char) (exponent : Int) : List Char :=
  if l.leastPositional ≤ exponent ∧ exponent < l.leastScientific then
    match exponent with
    | .ofNat e =>
      let whole := ds.take (e + 1)
      let fraction := ds.drop (e + 1)
      whole ++ List.replicate (e + 1 - ds.length) '0' ++ '.' :: (if fraction.isEmpty then ['0'] else fraction)
    | .negSucc e => '0' :: '.' :: List.replicate e '0' ++ ds
  else
    let power := Nat.toDigits 10 exponent.natAbs
    mantissa ds ++ 'e' :: (if exponent < 0 then '-' else '+') ::
      List.replicate (l.exponentWidth - power.length) '0' ++ power

/-- The characters of a magnitude. -/
def magnitudeChars (rank : Nat) : List Char :=
  let d := shortest rank
  let all := Nat.toDigits 10 d.digits
  let ds := trimZeros all
  layout.lay (if ds.isEmpty then ['0'] else ds) (if rank = 0 then 0 else d.exponent + all.length - 1)

/-- The text of a number. -/
def toText : Binary64 → Text
  | .nan => "nan"
  | .infinite s => if s then "-inf" else "inf"
  | .finite s r => (if s then "-" else "") ++ (magnitudeChars r).map Symbol.char

example : toText (ofDecimal false 1 (-7)) = "1e-07" := by decide +kernel
example : toText (ofDecimal false 1 16) = "1e+16" := by decide +kernel
example : toText (add (ofDecimal false 1 (-1)) (ofDecimal false 2 (-1))) = "0.30000000000000004" := by
  decide +kernel
example : toText (ofDecimal true 49 (-325)) = "-5e-324" := by decide +kernel
example : toText (zero true) = "-0.0" := by decide +kernel

end Binary64

end EventPipeline
