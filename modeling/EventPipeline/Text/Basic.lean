/-!
# Text

A text is a list of code points. An escape such as `\ud800` inside a string literal may leave one
half of a surrogate pair standing alone, which no `Char` can hold, so a symbol is a character or a
lone surrogate. Lengths, positions and the order of texts all count code points.
-/

namespace EventPipeline

/-- One code point of a text. -/
inductive Symbol where
  /-- A Unicode scalar value. -/
  | char (c : Char)
  /-- The lone surrogate `0xD800 + n`. -/
  | surrogate (n : Fin 0x800)
  deriving DecidableEq, Inhabited

namespace Symbol

/-- The code point as a number. -/
def code : Symbol → Nat
  | .char c => c.toNat
  | .surrogate n => 0xD800 + n

/-- The symbol of a code point below `0x110000`. -/
def ofCode (n : Nat) : Symbol :=
  if h : 0xD800 ≤ n ∧ n < 0xE000 then .surrogate ⟨n - 0xD800, by omega⟩ else .char (Char.ofNat n)

/-- Every symbol but a lone surrogate has a UTF-8 form. -/
def isEncodable : Symbol → Bool
  | .char _ => true
  | .surrogate _ => false

/-- The decimal digits `0` to `9`. -/
def isAsciiDigit : Symbol → Bool
  | .char c => c.isDigit
  | .surrogate _ => false

/-- The value of a hexadecimal digit, in either case. -/
def hexValue? : Symbol → Option Nat
  | .char c =>
    if c.isDigit then some (c.toNat - '0'.toNat)
    else if 'a' ≤ c ∧ c ≤ 'f' then some (c.toNat - 'a'.toNat + 10)
    else if 'A' ≤ c ∧ c ≤ 'F' then some (c.toNat - 'A'.toNat + 10)
    else none
  | .surrogate _ => none

end Symbol

/-- A list of code points. -/
abbrev Text := List Symbol

namespace Text

/-- The text of a string. -/
def ofString (s : String) : Text :=
  s.toList.map .char

instance : Coe String Text := ⟨ofString⟩

/-- The text of one character. -/
def ofChar (c : Char) : Text :=
  [.char c]

/-- The decimal digits of a natural number. -/
def ofNat (n : Nat) : Text :=
  (Nat.toDigits 10 n).map .char

/-- The decimal digits of an integer, after a minus sign if it is negative. -/
def ofInt : Int → Text
  | .ofNat n => ofNat n
  | .negSucc n => .char '-' :: ofNat (n + 1)

/-- A text joined from parts, with nothing between them. -/
def concat (parts : List Text) : Text :=
  parts.flatten

/-- A text joined from parts, with a separator between them. -/
def join (separator : Text) : List Text → Text
  | [] => []
  | [part] => part
  | part :: parts => part ++ separator ++ join separator parts

/-- The order of two texts, by code point. -/
def compare : Text → Text → Ordering
  | [], [] => .eq
  | [], _ :: _ => .lt
  | _ :: _, [] => .gt
  | a :: s, b :: t => (Ord.compare a.code b.code).then (compare s t)

/-- `s` stands before `t` by code point. -/
def before (s t : Text) : Bool :=
  compare s t == .lt

/-- `s` stands before `t` by code point, or equals it. -/
def notAfter (s t : Text) : Bool :=
  compare s t != .gt

/-- Texts in the order of their code points. -/
def sort (ts : List Text) : List Text :=
  ts.mergeSort notAfter

/-- Every symbol has a UTF-8 form. -/
def isEncodable (t : Text) : Bool :=
  t.all Symbol.isEncodable

/-- What follows `lead` in a text, if the text starts with it. -/
def after? (t lead : Text) : Option Text :=
  if lead.isPrefixOf t then some (t.drop lead.length) else none

/-- The parts of a text between the symbols that `separates` accepts. -/
def splitOn (separates : Symbol → Bool) : Text → List Text
  | [] => [[]]
  | c :: t =>
    if separates c then [] :: splitOn separates t
    else match splitOn separates t with
      | [] => [[c]]
      | part :: parts => (c :: part) :: parts

/-- A number in hexadecimal, padded with zeros on the left to `width` digits. -/
def hex (width : Nat) (n : Nat) : Text :=
  let digits := (Nat.toDigits 16 n).map Symbol.char
  List.replicate (width - digits.length) (.char '0') ++ digits

/-- The string of a text; a lone surrogate becomes the replacement character. -/
def toString (t : Text) : String :=
  String.ofList (t.map fun
    | .char c => c
    | .surrogate _ => '\uFFFD')

theorem isEncodable_append (s t : Text) : isEncodable (s ++ t) = (isEncodable s && isEncodable t) := by
  simp [isEncodable]

end Text

end EventPipeline
