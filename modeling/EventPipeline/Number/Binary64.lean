/-!
# Binary64 numbers

The IEEE 754 double precision numbers in exact arithmetic. The finite magnitudes are numbered in
increasing order by their rank: rank `0` is zero, rank `1` the least subnormal number, and the
last rank is the greatest finite number. Every finite magnitude is a whole number of units of
`2 ^ -1074`, so sums, products, quotients and remainders are computed exactly on units and rounded
once, to the nearest magnitude, a tie to the one with an even significand.
-/

namespace EventPipeline

-- Powers of natural numbers are the core library's, whatever else is imported.
attribute [local instance (high)] instPowNat

/-- A double precision number. -/
inductive Binary64 where
  /-- No number. -/
  | nan
  /-- Positive or negative infinity. -/
  | infinite (negative : Bool)
  /-- The finite number of a sign and a rank; both zeros are finite. -/
  | finite (negative : Bool) (rank : Fin (2047 * 2 ^ (52 : Nat)))
  deriving DecidableEq

namespace Binary64

/-! ### Ranks and units -/

/-- How many units make one. -/
def unitsPerOne : Nat := 2 ^ (1074 : Nat)

/-- The binary exponent of a rank, counted in units: its magnitude is `significand * 2 ^ scale`. -/
def scale (rank : Nat) : Nat := rank / 2 ^ (52 : Nat) - 1

/-- The integer significand of a rank, below `2 ^ 53`. -/
def significand (rank : Nat) : Nat :=
  if rank < 2 ^ (52 : Nat) then rank else 2 ^ (52 : Nat) + rank % 2 ^ (52 : Nat)

/-- The magnitude of a rank in units. -/
def units (rank : Nat) : Nat := significand rank * 2 ^ scale rank

/-- The natural number nearest to a quotient, an even one on a tie. -/
def nearestQuotient (num den : Nat) : Nat :=
  let q := num / den
  let r := num % den
  if 2 * r < den then q else if den < 2 * r then q + 1 else q + q % 2

/-- The rank nearest to `num / den` units. It may lie beyond the last rank. -/
def nearestRank (num den : Nat) : Nat :=
  let scale := Nat.log2 (num / den) - 52
  scale * 2 ^ (52 : Nat) + nearestQuotient num (den * 2 ^ scale)

/-- The number of a sign and a rank; beyond the last rank it is infinite. -/
def ofRank (negative : Bool) (rank : Nat) : Binary64 :=
  if h : rank < 2047 * 2 ^ (52 : Nat) then .finite negative ⟨rank, h⟩ else .infinite negative

/-- The number nearest to `num / den` units. -/
def ofUnits (negative : Bool) (num den : Nat) : Binary64 :=
  ofRank negative (nearestRank num den)

/-- The number nearest to `num / den`. -/
def ofRatio (negative : Bool) (num den : Nat) : Binary64 :=
  ofUnits negative (num * unitsPerOne) den

/-- The zero of a sign. -/
def zero (negative : Bool) : Binary64 := .finite negative ⟨0, by decide⟩

/-- The number itself, if it is finite. -/
def finite? : Binary64 → Option Binary64
  | .finite s r => some (.finite s r)
  | _ => none

/-- The number nearest to an integer, if there is a finite one. -/
def ofInt? (n : Int) : Option Binary64 :=
  (ofRatio (n < 0) n.natAbs 1).finite?

/-- The value of a finite number in units, with its sign. -/
def signedUnits (negative : Bool) (rank : Nat) : Int :=
  if negative then -(units rank : Int) else units rank

/-! ### Predicates -/

/-- The number is not a number. -/
def isNaN : Binary64 → Bool
  | .nan => true
  | _ => false

/-- The number is one of the two zeros. -/
def isZero : Binary64 → Bool
  | .finite _ r => r.val == 0
  | _ => false

/-- The integer that the number is, if it is one. -/
def integer? : Binary64 → Option Int
  | .finite s r =>
    if units r % unitsPerOne = 0 then
      some (if s then -((units r / unitsPerOne : Nat) : Int) else (units r / unitsPerOne : Nat))
    else none
  | _ => none

/-- The greatest integer that is not above a finite number. -/
def floor (negative : Bool) (rank : Nat) : Int :=
  Int.fdiv (signedUnits negative rank) unitsPerOne

/-! ### Arithmetic -/

/-- The number with the other sign. -/
def neg : Binary64 → Binary64
  | .nan => .nan
  | .infinite s => .infinite !s
  | .finite s r => .finite (!s) r

/-- The number without its sign. -/
def abs : Binary64 → Binary64
  | .nan => .nan
  | .infinite _ => .infinite false
  | .finite _ r => .finite false r

/-- The sum. An exact zero is negative only if both summands are. -/
def add : Binary64 → Binary64 → Binary64
  | .nan, _ => .nan
  | _, .nan => .nan
  | .infinite s, .infinite t => if s = t then .infinite s else .nan
  | .infinite s, .finite _ _ => .infinite s
  | .finite _ _, .infinite t => .infinite t
  | .finite s a, .finite t b =>
    let sum := signedUnits s a + signedUnits t b
    if sum = 0 then zero (s && t) else ofUnits (sum < 0) sum.natAbs 1

/-- The difference. -/
def sub (x y : Binary64) : Binary64 := add x (neg y)

/-- The product. -/
def mul : Binary64 → Binary64 → Binary64
  | .nan, _ => .nan
  | _, .nan => .nan
  | .infinite s, .infinite t => .infinite (s != t)
  | .infinite s, .finite t b => if b.val = 0 then .nan else .infinite (s != t)
  | .finite s a, .infinite t => if a.val = 0 then .nan else .infinite (s != t)
  | .finite s a, .finite t b => ofUnits (s != t) (units a * units b) unitsPerOne

/-- The quotient by a number that is not zero. -/
def div : Binary64 → Binary64 → Binary64
  | .nan, _ => .nan
  | _, .nan => .nan
  | .infinite _, .infinite _ => .nan
  | .infinite s, .finite t _ => .infinite (s != t)
  | .finite s _, .infinite t => zero (s != t)
  | .finite s a, .finite t b => ofRatio (s != t) (units a) (units b)

/-- The remainder of the division that rounds toward zero, with the sign of the dividend, by a
number that is not zero. An infinite dividend has none. -/
def rem? : Binary64 → Binary64 → Option Binary64
  | .nan, _ => some .nan
  | _, .nan => some .nan
  | .infinite _, _ => none
  | .finite s a, .infinite _ => some (.finite s a)
  | .finite s a, .finite _ b => some (ofUnits s (units a % units b) 1)

/-! ### Order -/

/-- How two numbers compare, or nothing if one of them is no number. -/
def compare? : Binary64 → Binary64 → Option Ordering
  | .nan, _ => none
  | _, .nan => none
  | .infinite s, .infinite t => some (compare (!s) (!t))
  | .infinite s, .finite _ _ => some (if s then .lt else .gt)
  | .finite _ _, .infinite t => some (if t then .gt else .lt)
  | .finite s a, .finite t b => some (compare (signedUnits s a) (signedUnits t b))

/-- How a number compares with an integer, exactly. -/
def compareInt? : Binary64 → Int → Option Ordering
  | .nan, _ => none
  | .infinite s, _ => some (if s then .lt else .gt)
  | .finite s a, n => some (compare (signedUnits s a) (n * unitsPerOne))

/-! ### Decimal numbers -/

/-- The number nearest to `digits * 10 ^ exponent`. Beyond `10 ^ 400` and below its inverse the
answer is known without computing the power. -/
def ofDecimal (negative : Bool) (digits : Nat) (exponent : Int) : Binary64 :=
  if digits = 0 then zero negative
  else if 400 < exponent then .infinite negative
  else if exponent < -((Nat.log2 digits / 3 : Nat) + 400 : Int) then zero negative
  else match exponent with
    | .ofNat e => ofRatio negative (digits * 10 ^ e) 1
    | .negSucc e => ofRatio negative digits (10 ^ (e + 1))

example : ofInt? 9007199254740993 = ofInt? 9007199254740992 := by decide +kernel
example : ofInt? (2 ^ 1024) = none := by decide +kernel
example : ofDecimal false 5 (-324) = .finite false ⟨1, by decide⟩ := by decide +kernel

end Binary64

end EventPipeline
