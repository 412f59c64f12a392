import EventPipeline.Value.Basic

/-!
# Equality by value

Values compare by what they mean as data: numbers by their exact values, whatever their kinds, a
truth value as zero or one, objects without regard to the order of their fields. What is no
number equals nothing.
-/

namespace EventPipeline

namespace Value

/-- The number that a scalar counts as in comparisons. -/
def asNumber? : Value → Option Number
  | .bool b => some (.int (if b then 1 else 0))
  | .number n => some n
  | _ => none

mutual

/-- Equality by value. -/
def equals : Value → Value → Bool
  | .null, .null => true
  | .text s, .text t => s == t
  | .array xs, .array ys => equalsItems xs ys
  | .object fs, .object gs => fs.length == gs.length && equalsFields fs gs
  | a, b =>
    match a.asNumber?, b.asNumber? with
    | some m, some n => m.equals n
    | _, _ => false

/-- Two lists are equal item by item. -/
def equalsItems : List Value → List Value → Bool
  | [], [] => true
  | v :: vs, w :: ws => equals v w && equalsItems vs ws
  | _, _ => false

/-- Each of the first fields has an equal counterpart among the second. -/
def equalsFields : List (Key × Value) → List (Key × Value) → Bool
  | [], _ => true
  | (k, v) :: fs, gs =>
    (match Table.find? gs k with
      | some w => equals v w
      | none => false) && equalsFields fs gs

end

end Value

end EventPipeline
