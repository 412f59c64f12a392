import EventPipeline.Expression.Operators

/-!
# Evaluation

The value of an expression on an event. Operands are evaluated from left to right; the second
operand of `&&` and `||` and the branches of a conditional only if they are needed. The first
fault ends the evaluation.
-/

namespace EventPipeline

namespace Expression

namespace Expr

/-- The items that a spread value stands for. -/
def spreadItems : Value → Except EvalError (List Value)
  | .array items => .ok items
  | v => .error (.spreadIntoArray v)

/-- The fields that a spread value stands for; null stands for none. -/
def spreadFields : Value → Except EvalError Fields
  | .null => .ok []
  | .object fields => .ok fields
  | v => .error (.spreadIntoObject v)

mutual

/-- The value of an expression on an event, at a reading of the clock. -/
def eval (now : Int) (event : Value) : Expr → Except EvalError Value
  | .literal v => .ok v
  | .event => .ok event
  | .member target key => do
    let t ← eval now event target
    let k ← eval now event key
    memberOf t k
  | .call f args => do
    let vs ← evalAll now event args
    applyBuiltin now f vs
  | .unary op operand => do
    let v ← eval now event operand
    applyUnary op v
  | .binary op left right => do
    let a ← eval now event left
    let b ← eval now event right
    applyBinary op a b
  | .logical .and left right => do
    let a ← eval now event left
    if truthy a then eval now event right else return a
  | .logical .or left right => do
    let a ← eval now event left
    if truthy a then return a else eval now event right
  | .conditional test yes no => do
    let t ← eval now event test
    if truthy t then eval now event yes else eval now event no
  | .array items => do
    let vs ← evalItems now event items
    return .array vs
  | .object entries => do
    let fs ← evalEntries now event [] entries
    return .object fs

/-- The values of expressions, from left to right. -/
def evalAll (now : Int) (event : Value) : List Expr → Except EvalError (List Value)
  | [] => .ok []
  | e :: es => do
    let v ← eval now event e
    let vs ← evalAll now event es
    return v :: vs

/-- The items of an array. -/
def evalItems (now : Int) (event : Value) : List (Bool × Expr) → Except EvalError (List Value)
  | [] => .ok []
  | (spread, e) :: es => do
    let v ← eval now event e
    let vs ← if spread then spreadItems v else pure [v]
    let ws ← evalItems now event es
    return vs ++ ws

/-- The fields of an object, set one after the other on top of those already set. -/
def evalEntries (now : Int) (event : Value) (fields : Fields) :
    List (Option Text × Expr) → Except EvalError Fields
  | [] => .ok fields
  | (some key, e) :: es => do
    let v ← eval now event e
    evalEntries now event (fields.set (.name key) v) es
  | (none, e) :: es => do
    let v ← eval now event e
    let more ← spreadFields v
    evalEntries now event (fields.setAll more) es

end

end Expr

end Expression

end EventPipeline
