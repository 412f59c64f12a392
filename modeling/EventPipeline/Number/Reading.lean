import EventPipeline.Number.Binary64
import EventPipeline.Text.Blank
import EventPipeline.Text.Digit

/-!
# Reading numbers

Decimal numerals. The digits may be those of any script. A free-standing numeral may be signed,
surrounded by whitespace, grouped by single underscores between digits, and may name an infinity
or the number that is none.
-/

namespace EventPipeline

/-! ### Digits -/

/-- The number that a list of digits of any script writes; other symbols count as zero. -/
def digitsValue (ds : Text) : Nat :=
  ds.foldl (fun n d => 10 * n + d.decimalValue?.getD 0) 0

namespace Binary64

/-- A numeral without sign, cut into its parts. -/
structure Numeral where
  /-- Digits before the point. -/
  whole : Text
  /-- Digits after the point. -/
  fraction : Text
  /-- The exponent after `e`. -/
  exponent : Int

/-- The number that a numeral writes. -/
def Numeral.value (negative : Bool) (n : Numeral) : Binary64 :=
  ofDecimal negative (digitsValue (n.whole ++ n.fraction)) (n.exponent - n.fraction.length)

/-- The exponent part of a numeral, `e` or `E` with an optional sign and digits, and what follows
it. A text that does not start with a full exponent part has exponent zero. -/
def readExponent (isDigit : Symbol → Bool) (t : Text) : Int × Text :=
  match t with
  | .char c :: rest =>
    if c = 'e' ∨ c = 'E' then
      let (negative, unsigned) := match rest with
        | .char '-' :: r => (true, r)
        | .char '+' :: r => (false, r)
        | r => (false, r)
      let ds := unsigned.takeWhile isDigit
      if ds.isEmpty then (0, t)
      else (if negative then -(digitsValue ds : Int) else digitsValue ds, unsigned.dropWhile isDigit)
    else (0, t)
  | _ => (0, t)

/-- The text without grouping underscores, each of which stands between two digits. -/
def ungroup (beforeDigit : Bool) : Text → Option Text
  | [] => some []
  | .char '_' :: t =>
    match t with
    | d :: _ => if beforeDigit && d.isDecimal then ungroup false t else none
    | [] => none
  | c :: t => (ungroup c.isDecimal t).map (c :: ·)

/-- The sign at the start of a text and what follows it. -/
def readSign : Text → Bool × Text
  | .char '-' :: t => (true, t)
  | .char '+' :: t => (false, t)
  | t => (false, t)

/-- The text with its letters in lower case, by the ASCII rule. -/
def lowerAscii (t : Text) : Text :=
  t.map fun
    | .char c => .char c.toLower
    | s => s

/-- The number that a free-standing numeral writes. -/
def ofText? (t : Text) : Option Binary64 := do
  let (negative, t) := readSign (← ungroup false t.strip)
  let name := lowerAscii t
  if name = "inf" ∨ name = "infinity" then some (.infinite negative)
  else if name = "nan" then some .nan
  else
    let whole := t.takeWhile Symbol.isDecimal
    let (fraction, rest) := match t.dropWhile Symbol.isDecimal with
      | .char '.' :: r => (r.takeWhile Symbol.isDecimal, r.dropWhile Symbol.isDecimal)
      | r => ([], r)
    if whole.isEmpty && fraction.isEmpty then none
    else
      let (exponent, rest) := readExponent Symbol.isDecimal rest
      if rest.isEmpty then some (Numeral.value negative ⟨whole, fraction, exponent⟩) else none

example : ofText? " 1_0.5e-1\n" = some (ofDecimal false 105 (-2)) := by decide +kernel
example : ofText? "-Infinity" = some (.infinite true) ∧ ofText? "٣" = some (ofDecimal false 3 0) := by
  decide +kernel
example : ofText? "1__0" = none ∧ ofText? "_1" = none ∧ ofText? "1e" = none ∧ ofText? "." = none := by
  decide +kernel

end Binary64

end EventPipeline
