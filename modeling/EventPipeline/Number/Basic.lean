import EventPipeline.Number.Shortest
import EventPipeline.Text.Basic

/-!
# Numbers

A number is an integer of any size or a double precision number; the two kinds stay apart (`1` and
`1.0`), but compare by their exact values. Mixed arithmetic turns the integer into a double
precision number first, which fails for integers beyond the greatest finite one.
-/

namespace EventPipeline

-- Powers of natural numbers are the core library's, whatever else is imported.
attribute [local instance (high)] instPowNat

/-- An integer or a double precision number. -/
inductive Number where
  /-- An integer of any size. -/
  | int (n : Int)
  /-- A double precision number. -/
  | float (x : Binary64)
  deriving DecidableEq

/-- Why an arithmetic operation has no result. -/
inductive NumberError where
  /-- An integer beyond the greatest finite number was turned into a double precision number. -/
  | integerTooLarge
  /-- The quotient of two integers lies beyond the greatest finite number. -/
  | quotientTooLarge
  /-- An infinity was rounded to an integer. -/
  | infinityToInteger
  /-- A value that is no number was rounded to an integer. -/
  | nanToInteger
  /-- An infinite dividend has no remainder. -/
  | remainderOfInfinity
  /-- A double precision number was divided by zero. -/
  | divisionByZero
  deriving DecidableEq

namespace Number

/-- The number in double precision. -/
def toFloat : Number → Except NumberError Binary64
  | .int n => (Binary64.ofInt? n).elim (.error .integerTooLarge) .ok
  | .float x => .ok x

/-- How two numbers compare by value, or nothing if one of them is no number. -/
def compare? : Number → Number → Option Ordering
  | .int m, .int n => some (compare m n)
  | .float x, .float y => x.compare? y
  | .float x, .int n => x.compareInt? n
  | .int m, .float y => (y.compareInt? m).map Ordering.swap

/-- Equality by value; what is no number equals nothing. -/
def equals (a b : Number) : Bool := a.compare? b == some .eq

/-- `a` is less than `b`. -/
def less (a b : Number) : Bool := a.compare? b == some .lt

/-- `a` is less than `b` or equals it. -/
def lessEq (a b : Number) : Bool := a.less b || a.equals b

/-- The number is zero, of either kind and sign. -/
def isZero : Number → Bool
  | .int n => n == 0
  | .float x => x.isZero

/-- The number is neither zero nor a value that is no number. -/
def isTruthy : Number → Bool
  | .int n => n != 0
  | .float x => !x.isZero && !x.isNaN

/-- The number as an integer, if its value is one. -/
def integer? : Number → Option Int
  | .int n => some n
  | .float x => x.integer?

/-- An integral double precision number becomes an integer; other numbers stay. -/
def integral (a : Number) : Number :=
  match a.integer? with
  | some n => .int n
  | none => a

/-- The text of a number. -/
def toText : Number → Text
  | .int n => Text.ofInt n
  | .float x => x.toText

/-- The number with the other sign. -/
def neg : Number → Number
  | .int n => .int (-n)
  | .float x => .float x.neg

/-- The number without its sign. -/
def abs : Number → Number
  | .int n => .int n.natAbs
  | .float x => .float x.abs

/-- An operation done exactly on two integers and in double precision otherwise. -/
def combine (ints : Int → Int → Int) (floats : Binary64 → Binary64 → Binary64) :
    Number → Number → Except NumberError Number
  | .int m, .int n => .ok (.int (ints m n))
  | a, b => do
    let x ← a.toFloat
    let y ← b.toFloat
    return .float (floats x y)

/-- The sum. -/
def add : Number → Number → Except NumberError Number := combine (· + ·) Binary64.add

/-- The difference. -/
def sub : Number → Number → Except NumberError Number := combine (· - ·) Binary64.sub

/-- The product. -/
def mul : Number → Number → Except NumberError Number := combine (· * ·) Binary64.mul

/-- The double precision number nearest to the quotient of two integers, the second not zero. -/
def quotient (m n : Int) : Except NumberError Binary64 :=
  (Binary64.ofRatio ((m < 0) != (n < 0)) m.natAbs n.natAbs).finite?.elim (.error .quotientTooLarge) .ok

/-- The quotient by a number that is not zero, in double precision. -/
def div : Number → Number → Except NumberError Binary64
  | .int m, .int n => quotient m n
  | a, b => do
    let x ← a.toFloat
    let y ← b.toFloat
    if y.isZero then .error .divisionByZero else return x.div y

/-- The remainder by a number that is not zero, with the sign of the dividend. -/
def rem : Number → Number → Except NumberError Number
  | .int m, .int n => .ok (.int (m.tmod n))
  | a, b => do
    let x ← a.toFloat
    let y ← b.toFloat
    match x.rem? y with
    | some z => return .float z
    | none => .error .remainderOfInfinity

/-- The greatest integer that is not above the number. -/
def floor : Number → Except NumberError Int
  | .int n => .ok n
  | .float .nan => .error .nanToInteger
  | .float (.infinite _) => .error .infinityToInteger
  | .float (.finite s r) => .ok (Binary64.floor s r)

/-- A power of ten: an integer for exponents that are not negative, in double precision otherwise. -/
def powerOfTen : Int → Number
  | .ofNat n => .int (10 ^ n)
  | .negSucc n => .float (Binary64.ofDecimal false 1 (.negSucc n))

/-- One half. -/
def half : Number := .float (Binary64.ofDecimal false 5 (-1))

/-- The number rounded to decimal digits after the point: scaled by a power of ten, raised by one
half, cut down to an integer and scaled back, each step rounded on its own. With no digit after
the point the result is an integer. -/
def round (a : Number) (digits : Int) : Except NumberError Number := do
  let factor := powerOfTen digits
  let scaled ← a.mul factor
  let raised ← scaled.add half
  let whole ← raised.floor
  let result ← Number.div (.int whole) factor
  if digits ≤ 0 then
    match result with
    | .nan => .error .nanToInteger
    | .infinite _ => .error .infinityToInteger
    | .finite s r =>
      let magnitude : Int := (Binary64.units r / Binary64.unitsPerOne : Nat)
      return .int (if s then -magnitude else magnitude)
  else return .float result

/-- The first number that no later one is less than. -/
def least (a : Number) (bs : List Number) : Number :=
  bs.foldl (fun best b => if b.less best then b else best) a

/-- The first number that no later one is greater than. -/
def greatest (a : Number) (bs : List Number) : Number :=
  bs.foldl (fun best b => if best.less b then b else best) a

end Number

end EventPipeline
