import EventPipeline.Expression.Tree
import EventPipeline.Json.Printer
import EventPipeline.Number.Reading
import EventPipeline.Text.Casing
import EventPipeline.Value.Equality

/-!
# Operators and functions on values

What the operators and functions of the expression language do with values. Arithmetic is for
numbers (and `+` also for two texts), comparisons are for two numbers or two texts and false with a
null, and a member of an object that is missing is null.
-/

namespace EventPipeline

namespace Expression

/-- Why an expression has no value on an event. The last two arise below the language: an
operation on numbers without a result, and an array or an object used as a key. -/
inductive EvalError where
  /-- An arithmetic operator met something that is no number. -/
  | notNumbers (op : BinaryOp) (left right : Value)
  /-- A division or a remainder by zero. -/
  | divisionByZero (op : BinaryOp)
  /-- A comparison of values of different kinds, or of kinds without an order. -/
  | incomparable (op : BinaryOp) (left right : Value)
  /-- A member of null. -/
  | memberOfNull (key : Value)
  /-- A member of a value without members. -/
  | memberOfScalar (key target : Value)
  /-- A prefix sign before something that is no number. -/
  | unaryNotNumber (op : UnaryOp) (operand : Value)
  /-- A spread item that is no array. -/
  | spreadIntoArray (v : Value)
  /-- A spread entry that is no object. -/
  | spreadIntoObject (v : Value)
  /-- A case mapping of something that is no text. -/
  | caseOfNonText (f : Builtin) (v : Value)
  /-- The length of something without a length. -/
  | lengthOf (v : Value)
  /-- The absolute value of something that is no number. -/
  | absOf (v : Value)
  /-- Rounding of something that is no number, or to no integer digit count. -/
  | roundArguments
  /-- A least or greatest of no numbers. -/
  | noNumbers (f : Builtin)
  /-- A text that writes no number. -/
  | unreadable (t : Text)
  /-- A value that does not turn into a number. -/
  | notConvertible (v : Value)
  /-- An operation on numbers without a result. -/
  | arithmetic (e : NumberError)
  /-- An array or an object was used as the key of an object. -/
  | unhashable (v : Value)
  deriving DecidableEq

/-- The value of an operation on numbers. -/
def ofNumber (r : Except NumberError Number) : Except EvalError Value :=
  match r with
  | .ok n => .ok (.number n)
  | .error e => .error (.arithmetic e)

/-! ### Truth and equality -/

/-- Null, false, zero, what is no number, and the empty text are false; all else is true. -/
def truthy : Value → Bool
  | .null => false
  | .bool b => b
  | .number n => n.isTruthy
  | .text t => !t.isEmpty
  | .array _ | .object _ => true

/-- Equality without conversions: a truth value equals truth values only, numbers compare by
value, and containers compare by value throughout. -/
def strictlyEquals : Value → Value → Bool
  | .bool a, .bool b => a == b
  | .bool _, _ => false
  | _, .bool _ => false
  | a, b => a.equals b

/-- The number that a text writes; a blank text writes zero. -/
def numberOfText? (t : Text) : Option Number :=
  if t.isBlank then some (.int 0) else (Binary64.ofText? t).map .float

/-- A truth value as zero or one; other values stay. -/
def unboolean : Value → Value
  | .bool b => .int (if b then 1 else 0)
  | v => v

/-- A number and a text that writes its value, in either order. -/
def numeralEquals : Value → Value → Bool
  | .number n, .text t => (numberOfText? t).any (·.equals n)
  | .text t, .number n => (numberOfText? t).any (·.equals n)
  | _, _ => false

/-- Equality with conversions: truth values count as zero and one, a text as the number that it
writes. -/
def looselyEquals (a b : Value) : Bool :=
  strictlyEquals a b || strictlyEquals (unboolean a) (unboolean b) || numeralEquals (unboolean a) (unboolean b)

/-! ### Order and arithmetic -/

/-- What a comparison says about two numbers. -/
def compareNumbers (op : BinaryOp) (m n : Number) : Bool :=
  match op with
  | .lt => m.less n
  | .le => m.lessEq n
  | .gt => n.less m
  | _ => n.lessEq m

/-- What a comparison says about two texts. -/
def compareTexts (op : BinaryOp) (s t : Text) : Bool :=
  match op with
  | .lt => s.before t
  | .le => s.notAfter t
  | .gt => t.before s
  | _ => t.notAfter s

/-- The result of a comparison. -/
def compareValues (op : BinaryOp) : Value → Value → Except EvalError Value
  | .null, _ | _, .null => .ok (.bool false)
  | .number m, .number n => .ok (.bool (compareNumbers op m n))
  | .text s, .text t => .ok (.bool (compareTexts op s t))
  | a, b => .error (.incomparable op a b)

/-- The quotient of two numbers. An integral quotient of two integers is an integer. -/
def quotientOf (m n : Number) : Except NumberError Number :=
  match m, n with
  | .int _, .int _ => (m.div n).map fun x => (Number.float x).integral
  | _, _ => (m.div n).map .float

/-- The result of an arithmetic operator on two numbers. -/
def arithmetic (op : BinaryOp) (m n : Number) : Except EvalError Value :=
  match op with
  | .add => ofNumber (m.add n)
  | .sub => ofNumber (m.sub n)
  | .mul => ofNumber (m.mul n)
  | .div => if n.isZero then .error (.divisionByZero op) else ofNumber (quotientOf m n)
  | _ => if n.isZero then .error (.divisionByZero op) else ofNumber (m.rem n)

/-- The result of an arithmetic operator. -/
def applyArithmetic (op : BinaryOp) (a b : Value) : Except EvalError Value :=
  match op, a, b with
  | .add, .text s, .text t => .ok (.text (s ++ t))
  | op, .number m, .number n => arithmetic op m n
  | op, a, b => .error (.notNumbers op a b)

/-- The result of a binary operator. -/
def applyBinary (op : BinaryOp) (a b : Value) : Except EvalError Value :=
  match op with
  | .strictEq => .ok (.bool (strictlyEquals a b))
  | .strictNe => .ok (.bool (!strictlyEquals a b))
  | .eq => .ok (.bool (looselyEquals a b))
  | .ne => .ok (.bool (!looselyEquals a b))
  | .lt | .le | .gt | .ge => compareValues op a b
  | .add | .sub | .mul | .div | .rem => applyArithmetic op a b

/-- The result of a prefix operator. -/
def applyUnary (op : UnaryOp) (v : Value) : Except EvalError Value :=
  match op, v with
  | .not, v => .ok (.bool (!truthy v))
  | .neg, .number n => .ok (.number n.neg)
  | .pos, .number n => .ok (.number n)
  | op, v => .error (.unaryNotNumber op v)

/-! ### Members -/

/-- The item of a list at an index that a key denotes: an integral number from zero on. -/
def itemAt {α : Type} (items : List α) (wrap : α → Value) (key : Value) : Except EvalError Value :=
  match key with
  | .number n => do
    match n.toFloat with
    | .error e => .error (.arithmetic e)
    | .ok _ =>
      match n.integer? with
      | some (.ofNat i) => return (items[i]?.map wrap).getD .null
      | _ => return .null
  | _ => .ok .null

/-- The key of an object that a value denotes. -/
def keyOf? : Value → Except EvalError (Option Key)
  | .text t => .ok (some (.name t))
  | .number n => .ok (some (.name n.integral.toText))
  | .null => .ok (some .surplus)
  | .bool _ => .ok none
  | v => .error (.unhashable v)

/-- The name of the length of a text or an array. -/
def lengthName : Text := "length"

/-- The member of a value under a key. -/
def memberOf (target key : Value) : Except EvalError Value :=
  match target with
  | .null => .error (.memberOfNull key)
  | .object fields => do
    match ← keyOf? key with
    | some k => return (Table.find? fields k).getD .null
    | none => return .null
  | .array items =>
    if key = .text lengthName then .ok (.nat items.length) else itemAt items id key
  | .text t =>
    if key = .text lengthName then .ok (.nat t.length) else itemAt t (fun s => .text [s]) key
  | v => .error (.memberOfScalar key v)

/-! ### Functions -/

/-- The text of a value: a text itself, a number in its shortest form, all else as JSON. -/
def display : Value → Text
  | .text t => t
  | .number n => n.integral.toText
  | v => Json.write .compact v

/-- A text mapped by a function; null stays null. -/
def mapText (f : Builtin) (g : Text → Text) : Value → Except EvalError Value
  | .null => .ok .null
  | .text t => .ok (.text (g t))
  | v => .error (.caseOfNonText f v)

/-- The number of symbols, items or fields. -/
def lengthOf : Value → Except EvalError Value
  | .text t => .ok (.nat t.length)
  | .array items => .ok (.nat items.length)
  | .object fields => .ok (.nat fields.length)
  | v => .error (.lengthOf v)

/-- A number without its sign. -/
def absOf : Value → Except EvalError Value
  | .number n => .ok (.number n.abs)
  | v => .error (.absOf v)

/-- A number rounded to a number of digits that has to be integral. -/
def roundOf : Value → Value → Except EvalError Value
  | .number n, .number digits =>
    match digits.toFloat with
    | .error e => .error (.arithmetic e)
    | .ok _ =>
      match digits.integer? with
      | some d => ofNumber (n.round d)
      | none => .error .roundArguments
  | _, _ => .error .roundArguments

/-- The numbers that values are, if all are numbers. -/
def allNumbers? : List Value → Option (List Number)
  | [] => some []
  | .number n :: vs => (allNumbers? vs).map (n :: ·)
  | _ :: _ => none

/-- The least or greatest of the arguments, or of the items of a single array. -/
def extreme (f : Builtin) (choose : Number → List Number → Number) (args : List Value) :
    Except EvalError Value :=
  let values := match args with
    | [.array items] => items
    | args => args
  match allNumbers? values with
  | some (n :: ns) => .ok (.number (choose n ns))
  | _ => .error (.noNumbers f)

/-- The number that a value turns into; null stays null. -/
def numberOf : Value → Except EvalError Value
  | .null => .ok .null
  | .bool b => .ok (unboolean (.bool b))
  | .number n => .ok (.number n)
  | .text t =>
    match numberOfText? t with
    | some n => .ok (.number n.integral)
    | none => .error (.unreadable t)
  | v => .error (.notConvertible v)

/-- The result of a function on as many arguments as it takes; missing ones count as null. `now`
is the reading of the clock in milliseconds. -/
def applyBuiltin (now : Int) (f : Builtin) (args : List Value) : Except EvalError Value :=
  let first := args.headD .null
  match f with
  | .lower => mapText f Text.lower first
  | .upper => mapText f Text.upper first
  | .len => lengthOf first
  | .abs => absOf first
  | .round => roundOf first (match args with
    | _ :: digits :: _ => digits
    | _ => .int 0)
  | .min => extreme f Number.least args
  | .max => extreme f Number.greatest args
  | .str => .ok (.text (display first))
  | .number => numberOf first
  | .now => .ok (.int now)

end Expression

end EventPipeline
