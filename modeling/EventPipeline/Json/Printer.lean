import EventPipeline.Value.Basic

/-!
# Writing JSON

Values as JSON text. Quotes, backslashes and control characters are escaped, all other characters
stand for themselves. Double precision numbers beyond JSON are written as `NaN` and `Infinity`.
-/

namespace EventPipeline

namespace Json

/-! ### Strings -/

/-- How a symbol is written inside a string. -/
def escapeSymbol (s : Symbol) : Text :=
  match s with
  | .char '"' => "\\\""
  | .char '\\' => "\\\\"
  | .char '\n' => "\\n"
  | .char '\r' => "\\r"
  | .char '\t' => "\\t"
  | .char '\x08' => "\\b"
  | .char '\x0c' => "\\f"
  | .char c => if c.toNat < 0x20 then "\\u" ++ Text.hex 4 c.toNat else [s]
  | .surrogate _ => [s]

/-- A text as a JSON string. -/
def writeText (t : Text) : Text :=
  .char '"' :: t.flatMap escapeSymbol ++ [.char '"']

/-- A number as JSON. -/
def writeNumber : Number → Text
  | .int n => Text.ofInt n
  | .float .nan => "NaN"
  | .float (.infinite s) => if s then "-Infinity" else "Infinity"
  | .float x => x.toText

/-- A key as a JSON string. -/
def writeKey : Key → Text
  | .name t => writeText t
  | .surplus => "\"null\""

/-! ### Values -/

/-- The layout of a JSON text. -/
structure Style where
  /-- Between two items of an array or fields of an object. -/
  separator : Text
  /-- Between a key and its value. -/
  colon : Text
  /-- The width of one step of indentation, if every item has a line of its own. -/
  indent : Option Nat

namespace Style

/-- No blank anywhere. -/
def compact : Style := ⟨",", ":", none⟩

/-- A blank after each comma and colon. -/
def spaced : Style := ⟨", ", ": ", none⟩

/-- A line for each item, indented by two blanks. -/
def indented : Style := ⟨",", ": ", some 2⟩

/-- The line break in front of an item at a depth. -/
def lineBreak (style : Style) (depth : Nat) : Text :=
  match style.indent with
  | none => []
  | some width => .char '\n' :: List.replicate (width * depth) (.char ' ')

end Style

mutual

/-- A value as JSON, standing at a depth. -/
def writeAt (style : Style) (depth : Nat) : Value → Text
  | .null => "null"
  | .bool true => "true"
  | .bool false => "false"
  | .number n => writeNumber n
  | .text t => writeText t
  | .array [] => "[]"
  | .array (v :: vs) =>
    "[" ++ style.lineBreak (depth + 1) ++ writeAt style (depth + 1) v ++ writeItems style (depth + 1) vs
      ++ style.lineBreak depth ++ "]"
  | .object [] => "\x7b\x7d"
  | .object ((k, v) :: fs) =>
    "\x7b" ++ style.lineBreak (depth + 1) ++ writeKey k ++ style.colon ++ writeAt style (depth + 1) v
      ++ writeFields style (depth + 1) fs ++ style.lineBreak depth ++ "\x7d"

/-- The items of an array after the first one. -/
def writeItems (style : Style) (depth : Nat) : List Value → Text
  | [] => []
  | v :: vs => style.separator ++ style.lineBreak depth ++ writeAt style depth v ++ writeItems style depth vs

/-- The fields of an object after the first one. -/
def writeFields (style : Style) (depth : Nat) : List (Key × Value) → Text
  | [] => []
  | (k, v) :: fs =>
    style.separator ++ style.lineBreak depth ++ writeKey k ++ style.colon ++ writeAt style depth v
      ++ writeFields style depth fs

end

/-- A value as JSON. -/
def write (style : Style) (v : Value) : Text :=
  writeAt style 0 v

example : write .spaced (.object [(.name "a", .array [.null, .int 1]), (.name "b\n", .object [])])
    = "\x7b\"a\": [null, 1], \"b\\n\": \x7b\x7d\x7d" := by decide

end Json

end EventPipeline
