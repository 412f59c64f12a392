import EventPipeline.Number.Reading
import EventPipeline.Value.Basic

/-!
# Reading JSON

A reader for JSON with three further literals, `NaN`, `Infinity` and `-Infinity`. Each step takes
the text that is left and returns what it has read with the text that is left after it; a
complaint names the text that was left where it arose, which gives its position. Objects keep the
place of a key's first occurrence and the value of its last.
-/

namespace EventPipeline

namespace Json

/-- Why a text is no JSON. -/
inductive Complaint where
  /-- No value starts here. -/
  | value
  /-- No key starts here. -/
  | propertyName
  /-- No colon follows the key. -/
  | colon
  /-- Neither a comma nor the end of the container follows. -/
  | comma
  /-- The string that starts here has no end. -/
  | unterminated
  /-- A control character stands in a string. -/
  | control
  /-- A backslash is followed by no escape. -/
  | escape
  /-- A `\u` is not followed by four hexadecimal digits and more. -/
  | unicodeEscape
  /-- Something follows the value. -/
  | extra
  /-- The text starts with a byte order mark. -/
  | byteOrderMark
  deriving DecidableEq

/-- A complaint and the text that was left where it arose. -/
structure Refusal where
  /-- Why the text is refused. -/
  complaint : Complaint
  /-- The text from the place of the complaint on. -/
  left : Text

/-- A blank of JSON. -/
def isBlank (s : Symbol) : Bool :=
  s == .char ' ' || s == .char '\t' || s == .char '\n' || s == .char '\r'

/-- The text without blanks at its start. -/
def skipBlanks (t : Text) : Text :=
  t.dropWhile isBlank

/-! ### Strings -/

/-- The four hexadecimal digits of an escape, of which `t` starts with the letter `u`. More text
has to follow them. -/
def readHex (t : Text) : Except Refusal (Nat × Text) :=
  match t with
  | _ :: a :: b :: c :: d :: rest =>
    match a.hexValue?, b.hexValue?, c.hexValue?, d.hexValue? with
    | some w, some x, some y, some z =>
      if rest.isEmpty then .error ⟨.unicodeEscape, t⟩
      else .ok (((w * 16 + x) * 16 + y) * 16 + z, rest)
    | _, _, _, _ => .error ⟨.unicodeEscape, t⟩
  | _ => .error ⟨.unicodeEscape, t⟩

/-- The symbol of a short escape. -/
def shortEscape? : Symbol → Option Char
  | .char '"' => some '"'
  | .char '\\' => some '\\'
  | .char '/' => some '/'
  | .char 'b' => some '\x08'
  | .char 'f' => some '\x0c'
  | .char 'n' => some '\n'
  | .char 'r' => some '\r'
  | .char 't' => some '\t'
  | _ => none

/-- The escape that follows a backslash. A high surrogate joins a low one that is escaped right
after it, provided that more text follows. -/
def readEscape (backslash : Text) (t : Text) : Except Refusal (Symbol × Text) :=
  match t with
  | .char 'u' :: _ => do
    let (high, rest) ← readHex t
    if 0xD800 ≤ high ∧ high < 0xDC00 then
      match rest with
      | .char '\\' :: .char 'u' :: more =>
        if 4 < more.length then
          let (low, after) ← readHex (.char 'u' :: more)
          if 0xDC00 ≤ low ∧ low < 0xE000 then
            return (Symbol.ofCode (0x10000 + (high - 0xD800) * 0x400 + (low - 0xDC00)), after)
          else return (Symbol.ofCode high, rest)
        else return (Symbol.ofCode high, rest)
      | _ => return (Symbol.ofCode high, rest)
    else return (Symbol.ofCode high, rest)
  | c :: rest =>
    match shortEscape? c with
    | some e => .ok (.char e, rest)
    | none => .error ⟨.escape, backslash⟩
  | [] => .error ⟨.escape, backslash⟩

/-- The rest of a string whose opening quote `opening` starts with. -/
def readStringRest (opening : Text) : Nat → Text → Text → Except Refusal (Text × Text)
  | 0, _, _ => .error ⟨.unterminated, opening⟩
  | fuel + 1, read, t =>
    match t with
    | [] => .error ⟨.unterminated, opening⟩
    | .char '"' :: rest => .ok (read.reverse, rest)
    | .char '\\' :: rest =>
      if rest.isEmpty then .error ⟨.unterminated, opening⟩
      else do
        let (s, rest) ← readEscape t rest
        readStringRest opening fuel (s :: read) rest
    | s :: rest =>
      if s.code < 0x20 then .error ⟨.control, t⟩ else readStringRest opening fuel (s :: read) rest

/-- The string whose opening quote the text starts with. -/
def readString (t : Text) : Except Refusal (Text × Text) :=
  readStringRest t t.length [] (t.drop 1)

/-! ### Numbers -/

/-- The integer digits at the start of a text: a zero, or digits that do not start with one. -/
def readWhole (t : Text) : Option (Text × Text) :=
  match t with
  | .char '0' :: rest => some ([.char '0'], rest)
  | s :: _ => if s.isAsciiDigit then some (t.takeWhile Symbol.isAsciiDigit, t.dropWhile Symbol.isAsciiDigit) else none
  | [] => none

/-- The digits after a point at the start of a text, if there are any, and what follows them. -/
def readFraction (t : Text) : Text × Text :=
  match t with
  | .char '.' :: r =>
    let ds := r.takeWhile Symbol.isAsciiDigit
    if ds.isEmpty then ([], t) else (ds, r.dropWhile Symbol.isAsciiDigit)
  | _ => ([], t)

/-- The number of a sign at the start of a text. It is an integer if it has neither a fraction nor an
exponent. -/
def readUnsigned? (negative : Bool) (t : Text) : Option (Number × Text) := do
  let (whole, rest) ← readWhole t
  let (fraction, rest) := readFraction rest
  let (exponent, after) := Binary64.readExponent Symbol.isAsciiDigit rest
  if fraction.isEmpty && after.length == rest.length then
    return (.int (if negative then -(digitsValue whole : Int) else digitsValue whole), rest)
  else return (.float (Binary64.Numeral.value negative ⟨whole, fraction, exponent⟩), after)

/-- The number at the start of a text. -/
def readNumber? : Text → Option (Number × Text)
  | .char '-' :: t => readUnsigned? true t
  | t => readUnsigned? false t

/-! ### Values -/

/-- The literals that are words, and their values. -/
def words : List (String × Value) :=
  [("null", .null), ("true", .bool true), ("false", .bool false), ("NaN", .number (.float .nan)),
   ("Infinity", .number (.float (.infinite false))), ("-Infinity", .number (.float (.infinite true)))]

/-- The word at the start of a text. -/
def readWord? (t : Text) : Option (Value × Text) :=
  words.findSome? fun (word, v) => (t.after? word).map fun rest => (v, rest)

/-- A scalar at the start of a text. -/
def readScalar (t : Text) : Except Refusal (Value × Text) :=
  match t with
  | .char '"' :: _ => do
    let (s, rest) ← readString t
    return (.text s, rest)
  | _ =>
    match readWord? t with
    | some result => .ok result
    | none =>
      match readNumber? t with
      | some (n, rest) => .ok (.number n, rest)
      | none => .error ⟨.value, t⟩

mutual

/-- The value at the start of a text. -/
def readValue : Nat → Text → Except Refusal (Value × Text)
  | 0, t => .error ⟨.value, t⟩
  | fuel + 1, t =>
    match t with
    | .char '[' :: rest =>
      match skipBlanks rest with
      | .char ']' :: rest => .ok (.array [], rest)
      | rest => readItems fuel [] rest
    | .char '\x7b' :: rest =>
      match skipBlanks rest with
      | .char '\x7d' :: rest => .ok (.object [], rest)
      | rest => readFields fuel [] rest
    | _ => readScalar t

/-- The items of an array up to its closing bracket, after those already read. -/
def readItems : Nat → List Value → Text → Except Refusal (Value × Text)
  | 0, _, t => .error ⟨.value, t⟩
  | fuel + 1, read, t => do
    let (v, rest) ← readValue fuel t
    match skipBlanks rest with
    | .char ']' :: rest => return (.array (v :: read).reverse, rest)
    | .char ',' :: rest => readItems fuel (v :: read) (skipBlanks rest)
    | rest => .error ⟨.comma, rest⟩

/-- The fields of an object up to its closing brace, after those already read. -/
def readFields : Nat → Fields → Text → Except Refusal (Value × Text)
  | 0, _, t => .error ⟨.value, t⟩
  | fuel + 1, read, t =>
    match t with
    | .char '"' :: _ => do
      let (key, rest) ← readString t
      match skipBlanks rest with
      | .char ':' :: rest =>
        let (v, rest) ← readValue fuel (skipBlanks rest)
        let read := read.set (.name key) v
        match skipBlanks rest with
        | .char '\x7d' :: rest => return (.object read, rest)
        | .char ',' :: rest => readFields fuel read (skipBlanks rest)
        | rest => .error ⟨.comma, rest⟩
      | rest => .error ⟨.colon, rest⟩
    | _ => .error ⟨.propertyName, t⟩

end

/-! ### Whole texts -/

/-- Why a whole text is refused, and where. -/
structure Error where
  /-- Why the text is refused. -/
  complaint : Complaint
  /-- The place of the complaint, counted from zero. -/
  position : Nat
  /-- The text up to the place of the complaint. -/
  read : Text
  deriving DecidableEq

/-- The value that a text is, with blanks around it. -/
def read (t : Text) : Except Error Value :=
  let refuse (r : Refusal) : Error :=
    let position := t.length - r.left.length
    ⟨r.complaint, position, t.take position⟩
  match t with
  | .char '\uFEFF' :: _ => .error ⟨.byteOrderMark, 0, []⟩
  | _ =>
    match readValue (2 * t.length + 2) (skipBlanks t) with
    | .error r => .error (refuse r)
    | .ok (v, rest) =>
      match skipBlanks rest with
      | [] => .ok v
      | left => .error (refuse ⟨.extra, left⟩)

/-- A complaint in words. -/
def Complaint.message : Complaint → Text
  | .value => "Expecting value"
  | .propertyName => "Expecting property name enclosed in double quotes"
  | .colon => "Expecting ':' delimiter"
  | .comma => "Expecting ',' delimiter"
  | .unterminated => "Unterminated string starting at"
  | .control => "Invalid control character at"
  | .escape => "Invalid \\escape"
  | .unicodeEscape => "Invalid \\uXXXX escape"
  | .extra => "Extra data"
  | .byteOrderMark => "Unexpected UTF-8 BOM (decode using utf-8-sig)"

/-- The complaint with its line, its column and its position. -/
def Error.message (e : Error) : Text :=
  let line := e.read.count (.char '\n') + 1
  let column := (e.read.reverse.takeWhile (· != .char '\n')).length + 1
  e.complaint.message ++ ": line " ++ Text.ofNat line ++ " column " ++ Text.ofNat column ++ " (char "
    ++ Text.ofNat e.position ++ ")"

end Json

end EventPipeline
