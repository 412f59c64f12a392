import EventPipeline.Number.Basic
import EventPipeline.Table

/-!
# Values

Events, configurations and everything computed from them are JSON values. The fields of an object
keep the order in which their keys were first set. A key is a name, except that a row of a table
with more cells than columns keeps the surplus cells under a key of its own.
-/

namespace EventPipeline

/-- A key of an object. -/
inductive Key where
  /-- A named field. -/
  | name (t : Text)
  /-- The cells of a table row beyond its last column. -/
  | surplus
  deriving DecidableEq

/-- A JSON value. -/
inductive Value where
  /-- The null value. -/
  | null
  /-- A truth value. -/
  | bool (b : Bool)
  /-- A number. -/
  | number (n : Number)
  /-- A text. -/
  | text (t : Text)
  /-- A list of values. -/
  | array (items : List Value)
  /-- Fields in the order of their keys. -/
  | object (fields : List (Key × Value))
  deriving Inhabited

/-- The fields of an object, in order. -/
abbrev Fields := Table Key Value

instance : Coe Text Key := ⟨.name⟩
instance : Coe String Key := ⟨fun s => .name s⟩
instance : Coe Text Value := ⟨.text⟩
instance : Coe String Value := ⟨fun s => .text s⟩
instance : Coe Number Value := ⟨.number⟩

namespace Value

/-- An integer as a value. -/
def int (n : Int) : Value := .number (.int n)

/-- A natural number as a value. -/
def nat (n : Nat) : Value := .number (.int n)

/-- A text as a value, null if there is none. -/
def ofText? : Option Text → Value
  | some t => .text t
  | none => .null

/-- An integer as a value, null if there is none. -/
def ofInt? : Option Int → Value
  | some n => int n
  | none => .null

/-- The integer that the value is; truth values and double precision numbers are none. -/
def asInt? : Value → Option Int
  | .number (.int n) => some n
  | _ => none

/-- The text that the value is. -/
def asText? : Value → Option Text
  | .text t => some t
  | _ => none

/-- The fields of the object that the value is. -/
def asFields? : Value → Option Fields
  | .object fs => some fs
  | _ => none

/-- The value is null. -/
def isNull : Value → Bool
  | .null => true
  | _ => false

/-- The value says something: it is neither null, nor false, nor zero, nor empty. -/
def isFilled : Value → Bool
  | .null => false
  | .bool b => b
  | .number n => !n.isZero
  | .text t => !t.isEmpty
  | .array items => !items.isEmpty
  | .object fields => !fields.isEmpty

/-! ### Names of kinds -/

/-- The kind of a value in the words of the expression language. -/
def kind : Value → Text
  | .null => "null"
  | .bool _ => "boolean"
  | .number _ => "number"
  | .text _ => "string"
  | .array _ => "array"
  | .object _ => "object"

/-- The kind of a value in the words of configuration messages. -/
def tag : Value → Text
  | .null => "NoneType"
  | .bool _ => "bool"
  | .number (.int _) => "int"
  | .number (.float _) => "float"
  | .text _ => "str"
  | .array _ => "list"
  | .object _ => "dict"

/-! ### Decidable equality -/

mutual

/-- Decides whether two values are the same, order of fields included. -/
def decEq : (a b : Value) → Decidable (a = b)
  | .null, .null => .isTrue rfl
  | .bool a, .bool b => if h : a = b then .isTrue (by rw [h]) else .isFalse (by simp [h])
  | .number a, .number b => if h : a = b then .isTrue (by rw [h]) else .isFalse (by simp [h])
  | .text a, .text b => if h : a = b then .isTrue (by rw [h]) else .isFalse (by simp [h])
  | .array a, .array b =>
    match decEqItems a b with
    | .isTrue h => .isTrue (by rw [h])
    | .isFalse h => .isFalse (by simp [h])
  | .object a, .object b =>
    match decEqFields a b with
    | .isTrue h => .isTrue (by rw [h])
    | .isFalse h => .isFalse (by simp [h])
  | .null, .bool _ | .null, .number _ | .null, .text _ | .null, .array _ | .null, .object _
  | .bool _, .null | .bool _, .number _ | .bool _, .text _ | .bool _, .array _ | .bool _, .object _
  | .number _, .null | .number _, .bool _ | .number _, .text _ | .number _, .array _
  | .number _, .object _ | .text _, .null | .text _, .bool _ | .text _, .number _
  | .text _, .array _ | .text _, .object _ | .array _, .null | .array _, .bool _
  | .array _, .number _ | .array _, .text _ | .array _, .object _ | .object _, .null
  | .object _, .bool _ | .object _, .number _ | .object _, .text _ | .object _, .array _ =>
    .isFalse (by simp)

/-- Decides whether two lists of values are the same. -/
def decEqItems : (a b : List Value) → Decidable (a = b)
  | [], [] => .isTrue rfl
  | [], _ :: _ | _ :: _, [] => .isFalse (by simp)
  | v :: vs, w :: ws =>
    match decEq v w with
    | .isTrue hv =>
      match decEqItems vs ws with
      | .isTrue h => .isTrue (by rw [hv, h])
      | .isFalse h => .isFalse (by simp [h])
    | .isFalse hv => .isFalse (by simp [hv])

/-- Decides whether two lists of fields are the same. -/
def decEqFields : (a b : List (Key × Value)) → Decidable (a = b)
  | [], [] => .isTrue rfl
  | [], _ :: _ | _ :: _, [] => .isFalse (by simp)
  | (j, v) :: fs, (k, w) :: gs =>
    if hk : j = k then
      match decEq v w with
      | .isTrue hv =>
        match decEqFields fs gs with
        | .isTrue h => .isTrue (by rw [hk, hv, h])
        | .isFalse h => .isFalse (by simp [h])
      | .isFalse hv => .isFalse (by simp [hv])
    else .isFalse (by simp [hk])

end

instance : DecidableEq Value := decEq

end Value

end EventPipeline
