import EventPipeline.Expression.Token
import EventPipeline.Expression.Tree

/-!
# Parsing

Trees from tokens. From the loosest to the tightest the levels are the conditional, `||`, `&&`,
the equalities, the comparisons, sums, products, prefix operators, member access and the primary
expressions; the levels between are left-associative. Expressions and prefix operators may nest
fifty deep, and the parsers of one nesting level are built from those of the next inner one, so
the whole parser is defined by recursion on the levels that are left.

The end of the token list is the end of the expression. A complaint keeps the tokens that were
left where it arose.
-/

namespace EventPipeline

namespace Expression

/-- What the parser found missing or out of place. -/
inductive Complaint where
  /-- A punctuator was expected. -/
  | expected (p : Punct)
  /-- The expression nests too deeply. -/
  | tooDeep
  /-- There is no expression at all. -/
  | empty
  /-- A token that cannot stand here. -/
  | unexpectedToken
  /-- No name follows a point. -/
  | propertyName
  /-- A name that means nothing. -/
  | unknownName (name : Text)
  /-- A function that is not called. -/
  | notCalled (f : Builtin)
  /-- No key where an object entry starts. -/
  | propertyKey
  /-- No colon after the key of an entry. -/
  | missingColon (key : Text)
  deriving DecidableEq

/-- Why tokens are no expression. -/
inductive ParseError where
  /-- A complaint about the first of the tokens that are left, or about the end. -/
  | unexpected (complaint : Complaint) (left : List Token)
  /-- A function called with a number of arguments that it does not take, at a position. -/
  | arity (f : Builtin) (count : Nat) (position : Nat)
  deriving DecidableEq

/-- A parser takes tokens from the front of a list. -/
abbrev Parser (α : Type) := List Token → Except ParseError (α × List Token)

/-- How deep expressions and prefix operators may nest. -/
def maxNesting : Nat := 50

/-- How high a tree may be. -/
def maxHeight : Nat := 200

/-! ### Single tokens -/

/-- Complains about the next token. -/
def complain {α : Type} (c : Complaint) : Parser α := fun ts => .error (.unexpected c ts)

/-- The punctuator that comes next, if one does. -/
def nextPunct? : List Token → Option Punct
  | ⟨.punct p, _⟩ :: _ => some p
  | _ => none

/-- Takes a punctuator that has to come next. -/
def expect (p : Punct) : Parser Unit := fun ts =>
  if nextPunct? ts = some p then .ok ((), ts.drop 1) else complain (.expected p) ts

/-! ### Lists -/

/-- Elements between commas, up to a closing punctuator, which is left; a comma may follow the
last element. -/
def elements {α : Type} (close : Punct) (element : Parser α) : Nat → Parser (List α)
  | 0, ts => .ok ([], ts)
  | fuel + 1, ts =>
    if nextPunct? ts = some close then .ok ([], ts)
    else do
      let (x, ts) ← element ts
      if nextPunct? ts = some .comma then
        let (xs, ts) ← elements close element fuel (ts.drop 1)
        return (x :: xs, ts)
      else return ([x], ts)

/-- Elements up to a closing punctuator, which is taken. -/
def enclosed {α : Type} (close : Punct) (element : Parser α) : Parser (List α) := fun ts => do
  let (xs, ts) ← elements close element (ts.length + 1) ts
  let ((), ts) ← expect close ts
  return (xs, ts)

/-! ### Primary expressions -/

/-- The constant that a name stands for. -/
def constant? (name : Text) : Option Value :=
  if name = "true" then some (.bool true)
  else if name = "false" then some (.bool false)
  else if name = "null" then some .null
  else none

/-- The name of the event. -/
def eventName : Text := "event"

/-- The arguments of a function whose name stood at a position. -/
def arguments (expression : Parser Expr) (f : Builtin) (position : Nat) : Parser Expr := fun ts =>
  if nextPunct? ts = some .openParen then do
    let (args, ts) ← enclosed .closeParen expression (ts.drop 1)
    if f.accepts args.length then return (.call f args, ts)
    else throw (.arity f args.length position)
  else complain (.notCalled f) ts

/-- An item of an array. -/
def item (expression : Parser Expr) : Parser (Bool × Expr) := fun ts =>
  if nextPunct? ts = some .ellipsis then do
    let (e, ts) ← expression (ts.drop 1)
    return ((true, e), ts)
  else do
    let (e, ts) ← expression ts
    return ((false, e), ts)

/-- The key that a token is, if it can be one. -/
def keyText? : Lexeme → Option Text
  | .word t => some t
  | .string t => some t
  | .number n => some n.integral.toText
  | .punct _ => none

/-- An entry of an object. -/
def entry (expression : Parser Expr) : Parser (Option Text × Expr) := fun ts =>
  if nextPunct? ts = some .ellipsis then do
    let (e, ts) ← expression (ts.drop 1)
    return ((none, e), ts)
  else
    match ts with
    | [] => complain .propertyKey ts
    | token :: rest =>
      match keyText? token.lexeme with
      | none => complain .propertyKey ts
      | some key =>
        if nextPunct? rest = some .colon then do
          let (e, ts) ← expression (rest.drop 1)
          return ((some key, e), ts)
        else if token.lexeme = .word eventName then .ok ((some key, .event), rest)
        else complain (.missingColon key) rest

/-- A constant, the event, a call, an expression in parentheses, an array or an object. -/
def primary (expression : Parser Expr) : Parser Expr := fun ts =>
  match ts with
  | ⟨.number n, _⟩ :: rest => .ok (.literal (.number n), rest)
  | ⟨.string t, _⟩ :: rest => .ok (.literal (.text t), rest)
  | ⟨.word name, position⟩ :: rest =>
    match constant? name with
    | some v => .ok (.literal v, rest)
    | none =>
      if name = eventName then .ok (.event, rest)
      else
        match Builtin.ofName? name with
        | some f => arguments expression f position rest
        | none => complain (.unknownName name) ts
  | ⟨.punct .openParen, _⟩ :: rest => do
    let (e, ts) ← expression rest
    let ((), ts) ← expect .closeParen ts
    return (e, ts)
  | ⟨.punct .openBracket, _⟩ :: rest => do
    let (items, ts) ← enclosed .closeBracket (item expression) rest
    return (.array items, ts)
  | ⟨.punct .openBrace, _⟩ :: rest => do
    let (entries, ts) ← enclosed .closeBrace (entry expression) rest
    return (.object entries, ts)
  | _ => complain .unexpectedToken ts

/-! ### Member access -/

/-- The member accesses that follow a target. -/
def accesses (expression : Parser Expr) : Nat → Expr → Parser Expr
  | 0, target, ts => .ok (target, ts)
  | fuel + 1, target, ts =>
    match ts with
    | ⟨.punct .dot, _⟩ :: ⟨.word name, _⟩ :: rest =>
      accesses expression fuel (.member target (.literal (.text name))) rest
    | ⟨.punct .dot, _⟩ :: rest => complain .propertyName rest
    | ⟨.punct .openBracket, _⟩ :: rest => do
      let (key, ts) ← expression rest
      let ((), ts) ← expect .closeBracket ts
      accesses expression fuel (.member target key) ts
    | _ => .ok (target, ts)

/-- A primary expression and the member accesses that follow it. -/
def accessed (expression : Parser Expr) : Parser Expr := fun ts => do
  let (target, ts) ← primary expression ts
  accesses expression ts.length target ts

/-! ### Operators -/

/-- The prefix operator of a punctuator. -/
def UnaryOp.ofPunct? : Punct → Option UnaryOp
  | .not => some .not
  | .minus => some .neg
  | .plus => some .pos
  | _ => none

/-- A level of operators between two operands. -/
inductive Level where
  | or | and | equality | comparison | sum | product
  deriving DecidableEq

namespace Level

/-- The levels, the loosest first. -/
def all : List Level := [or, and, equality, comparison, sum, product]

/-- The tree that an operator of the level builds from its operands. -/
def operator? : Level → Punct → Option (Expr → Expr → Expr)
  | or, .or => some (.logical .or)
  | and, .and => some (.logical .and)
  | equality, .eq => some (.binary .eq)
  | equality, .ne => some (.binary .ne)
  | equality, .strictEq => some (.binary .strictEq)
  | equality, .strictNe => some (.binary .strictNe)
  | comparison, .lt => some (.binary .lt)
  | comparison, .le => some (.binary .le)
  | comparison, .gt => some (.binary .gt)
  | comparison, .ge => some (.binary .ge)
  | sum, .plus => some (.binary .add)
  | sum, .minus => some (.binary .sub)
  | product, .star => some (.binary .mul)
  | product, .slash => some (.binary .div)
  | product, .percent => some (.binary .rem)
  | _, _ => none

end Level

/-- The operators of a level and their right operands that follow a left operand. -/
def operations (level : Level) (operand : Parser Expr) : Nat → Expr → Parser Expr
  | 0, left, ts => .ok (left, ts)
  | fuel + 1, left, ts =>
    match (nextPunct? ts).bind level.operator? with
    | none => .ok (left, ts)
    | some build => do
      let (right, ts) ← operand (ts.drop 1)
      operations level operand fuel (build left right) ts

/-- A chain of operands with operators of one level between them. -/
def chain (level : Level) (operand : Parser Expr) : Parser Expr := fun ts => do
  let (first, ts) ← operand ts
  operations level operand ts.length first ts

/-- All levels of operators above an operand. -/
def layered (operand : Parser Expr) : List Level → Parser Expr
  | [] => operand
  | level :: levels => chain level (layered operand levels)

/-- A chain of the loosest level, and the branches of a conditional if a question mark follows. -/
def conditional (branch : Parser Expr) (test : Parser Expr) : Parser Expr := fun ts => do
  let (t, ts) ← test ts
  if nextPunct? ts = some .question then
    let (yes, ts) ← branch (ts.drop 1)
    let ((), ts) ← expect .colon ts
    let (no, ts) ← branch ts
    return (.conditional t yes no, ts)
  else return (t, ts)

/-! ### Nesting -/

/-- The two parsers of a nesting level that nest by themselves. -/
structure Nest where
  /-- A whole expression. -/
  expression : Parser Expr
  /-- An operand with its prefix operators. -/
  operand : Parser Expr

/-- An operand in front of which prefix operators may stand. -/
def prefixed (inner : Parser Expr) (plain : Parser Expr) : Parser Expr := fun ts =>
  match (nextPunct? ts).bind UnaryOp.ofPunct? with
  | some op => do
    let (e, ts) ← inner (ts.drop 1)
    return (.unary op e, ts)
  | none => plain ts

/-- The parsers with so many nesting levels left. -/
def nest : Nat → Nest
  | 0 => ⟨complain .tooDeep, prefixed (complain .tooDeep) (accessed (complain .tooDeep))⟩
  | levels + 1 =>
    let inner := nest levels
    let expression := conditional inner.expression (layered inner.operand Level.all)
    ⟨expression, prefixed inner.operand (accessed expression)⟩

/-- The tree of all tokens. -/
def parseTokens (ts : List Token) : Except ParseError Expr :=
  if ts.isEmpty then complain .empty ts |>.map (·.1)
  else do
    let (e, rest) ← (nest maxNesting).expression ts
    if rest.isEmpty then return e else complain .unexpectedToken rest |>.map (·.1)

end Expression

end EventPipeline
