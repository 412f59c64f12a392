import EventPipeline.Value.Basic

/-!
# Expression trees

The operators and functions of the expression language and the trees built from them, with the
height of a tree in two forms: by recursion on the tree, and by a sweep over a stack of subtrees
and their levels.
-/

namespace EventPipeline

namespace Expression

/-! ### Operators and functions -/

/-- An operator in front of its operand. -/
inductive UnaryOp where
  | not | neg | pos
  deriving DecidableEq

/-- An operator between two operands that are both evaluated. -/
inductive BinaryOp where
  | eq | ne | strictEq | strictNe | lt | le | gt | ge | add | sub | mul | div | rem
  deriving DecidableEq

/-- An operator between two operands of which the second is evaluated only if needed. -/
inductive LogicalOp where
  | and | or
  deriving DecidableEq

/-- A built-in function. -/
inductive Builtin where
  | lower | upper | len | abs | round | min | max | str | number | now
  deriving DecidableEq

namespace UnaryOp

/-- The sign of an operator. -/
def sign : UnaryOp → Text
  | not => "!"
  | neg => "-"
  | pos => "+"

end UnaryOp

namespace BinaryOp

/-- The sign of an operator. -/
def sign : BinaryOp → Text
  | eq => "=="
  | ne => "!="
  | strictEq => "==="
  | strictNe => "!=="
  | lt => "<"
  | le => "<="
  | gt => ">"
  | ge => ">="
  | add => "+"
  | sub => "-"
  | mul => "*"
  | div => "/"
  | rem => "%"

end BinaryOp

namespace LogicalOp

/-- The sign of an operator. -/
def sign : LogicalOp → Text
  | and => "&&"
  | or => "||"

end LogicalOp

namespace Builtin

/-- The name of a function. -/
def name : Builtin → Text
  | lower => "lower"
  | upper => "upper"
  | len => "len"
  | abs => "abs"
  | round => "round"
  | min => "min"
  | max => "max"
  | str => "str"
  | number => "number"
  | now => "now"

/-- All functions. -/
def all : List Builtin := [lower, upper, len, abs, round, min, max, str, number, now]

/-- The function of a name. -/
def ofName? (t : Text) : Option Builtin :=
  all.find? fun f => f.name = t

/-- The least number of arguments. -/
def leastArity : Builtin → Nat
  | now => 0
  | _ => 1

/-- The greatest number of arguments, if there is one. -/
def greatestArity? : Builtin → Option Nat
  | now => some 0
  | round => some 2
  | min | max => none
  | _ => some 1

/-- A function takes that many arguments. -/
def accepts (f : Builtin) (count : Nat) : Bool :=
  f.leastArity ≤ count && (match f.greatestArity? with
    | some most => count ≤ most
    | none => true)

theorem ofName?_name (f : Builtin) : ofName? f.name = some f := by
  cases f <;> decide

end Builtin

/-! ### Trees -/

/-- An expression. -/
inductive Expr where
  /-- A constant. -/
  | literal (v : Value)
  /-- The event. -/
  | event
  /-- The member of a target under a key. -/
  | member (target key : Expr)
  /-- A function applied to arguments. -/
  | call (f : Builtin) (args : List Expr)
  /-- A prefix operator and its operand. -/
  | unary (op : UnaryOp) (operand : Expr)
  /-- A binary operator and its operands. -/
  | binary (op : BinaryOp) (left right : Expr)
  /-- A logical operator and its operands. -/
  | logical (op : LogicalOp) (left right : Expr)
  /-- One of two branches, chosen by a test. -/
  | conditional (test yes no : Expr)
  /-- An array of items; a spread item stands for all items of its value. -/
  | array (items : List (Bool × Expr))
  /-- An object of entries; an entry without a key stands for all fields of its value. -/
  | object (entries : List (Option Text × Expr))
  deriving Inhabited

namespace Expr

/-- The direct subtrees, in order. -/
def children : Expr → List Expr
  | literal _ | event => []
  | member target key => [target, key]
  | call _ args => args
  | unary _ operand => [operand]
  | binary _ left right | logical _ left right => [left, right]
  | conditional test yes no => [test, yes, no]
  | array items => items.map (·.2)
  | object entries => entries.map (·.2)

mutual

/-- The height of a tree; a tree without subtrees has height one. -/
def height : Expr → Nat
  | literal _ | event => 1
  | member target key => 1 + max target.height key.height
  | call _ args => 1 + heightAll args
  | unary _ operand => 1 + operand.height
  | binary _ left right | logical _ left right => 1 + max left.height right.height
  | conditional test yes no => 1 + max test.height (max yes.height no.height)
  | array items => 1 + heightItems items
  | object entries => 1 + heightEntries entries

/-- The greatest height among trees, zero if there are none. -/
def heightAll : List Expr → Nat
  | [] => 0
  | e :: es => max e.height (heightAll es)

/-- The greatest height among items. -/
def heightItems : List (Bool × Expr) → Nat
  | [] => 0
  | (_, e) :: es => max e.height (heightItems es)

/-- The greatest height among entries. -/
def heightEntries : List (Option Text × Expr) → Nat
  | [] => 0
  | (_, e) :: es => max e.height (heightEntries es)

end

mutual

/-- The number of nodes of a tree. -/
def size : Expr → Nat
  | literal _ | event => 1
  | member target key => 1 + target.size + key.size
  | call _ args => 1 + sizeAll args
  | unary _ operand => 1 + operand.size
  | binary _ left right | logical _ left right => 1 + left.size + right.size
  | conditional test yes no => 1 + test.size + yes.size + no.size
  | array items => 1 + sizeItems items
  | object entries => 1 + sizeEntries entries

/-- The number of nodes of several trees. -/
def sizeAll : List Expr → Nat
  | [] => 0
  | e :: es => e.size + sizeAll es

/-- The number of nodes of items. -/
def sizeItems : List (Bool × Expr) → Nat
  | [] => 0
  | (_, e) :: es => e.size + sizeItems es

/-- The number of nodes of entries. -/
def sizeEntries : List (Option Text × Expr) → Nat
  | [] => 0
  | (_, e) :: es => e.size + sizeEntries es

end

/-- Takes subtrees and their levels from a stack, at most `steps` times, pushes the children of
each one level deeper, and keeps the deepest level. -/
def sweep : Nat → Nat → List (Expr × Nat) → Nat
  | 0, deepest, _ => deepest
  | _, deepest, [] => deepest
  | steps + 1, deepest, (e, level) :: stack =>
    sweep steps (max deepest level) ((e.children.map fun child => (child, level + 1)).reverse ++ stack)

/-- The height of a tree, found without recursion on it: every node is taken from the stack once. -/
def sweptHeight (e : Expr) : Nat :=
  sweep e.size 0 [(e, 1)]

end Expr

end Expression

end EventPipeline
