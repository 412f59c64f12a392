import EventPipeline.Expression.Parser
import Mathlib.Tactic.Common

/-!
# The grammar of expressions

Which tokens are an expression, and of which tree, said without a parser:

    expression = or ["?" expression ":" expression]
    or         = or "||" and | and                  (and so on for each level of operators)
    product    = product ("*" | "/" | "%") operand | operand
    operand    = ("!" | "-" | "+") operand | accessed
    accessed   = accessed "." name | accessed "[" expression "]" | primary
    primary    = number | string | constant | "event" | function "(" arguments ")"
               | "(" expression ")" | "[" items "]" | "{" entries "}"

Arguments, items and entries stand between commas, and one more comma may follow the last of them. The
operators of a level are left-associative: a level has the level itself on the left of its operators and
the next tighter one on the right.

A derivation is limited in how deep it nests: `Derives n` allows `n` expressions and prefix operators
around any point of what is derived. A function has to be given a number of arguments that it takes.
-/

namespace EventPipeline

namespace Expression

/-! ### Categories -/

/-- The forms of an expression, from the loosest to the tightest. -/
inductive Form where
  /-- Any expression. -/
  | expression
  /-- Operands with operators of a level, or of tighter levels, between them. -/
  | level (l : Level)
  /-- An operand with the prefix operators in front of it. -/
  | operand
  /-- A primary expression with the member accesses that follow it. -/
  | accessed
  /-- An expression that is closed in itself. -/
  | primary

/-- The form of the operands of a level. -/
def Level.operands : Level → Form
  | or => .level .and
  | and => .level .equality
  | equality => .level .comparison
  | comparison => .level .sum
  | sum => .level .product
  | product => .operand

/-- A level and the tighter ones. -/
def Level.onwards (l : Level) : List Level := Level.all.dropWhile (· ≠ l)

/-- What stands between commas. -/
inductive Element where
  /-- An argument of a function. -/
  | argument
  /-- An item of an array. -/
  | item
  /-- An entry of an object. -/
  | entry

namespace Element

/-- What an element is built into. -/
abbrev Tree : Element → Type
  | argument => Expr
  | item => Bool × Expr
  | entry => Option Text × Expr

/-- The punctuator that closes a list of elements. -/
def close : Element → Punct
  | argument => .closeParen
  | item => .closeBracket
  | entry => .closeBrace

end Element

/-- What tokens can be derived from. -/
inductive Category where
  /-- An expression of a form. -/
  | form (f : Form)
  /-- An element of a list. -/
  | element (k : Element)
  /-- The elements of a list, with the commas between them. -/
  | list (k : Element)

/-- What the tokens of a category are built into. -/
abbrev Category.Tree : Category → Type
  | form _ => Expr
  | element k => k.Tree
  | list k => List k.Tree

/-! ### Derivations -/

/-- Lexemes are of a category and have a tree, with at most so many expressions and prefix operators
around any point of them. -/
inductive Derives : Nat → (c : Category) → List Lexeme → c.Tree → Prop where
  /-- An expression without branches. -/
  | plain {n : Nat} {used : List Lexeme} {e : Expr} :
      Derives n (.form (.level .or)) used e → Derives (n + 1) (.form .expression) used e
  /-- A test and two branches. -/
  | conditional {n : Nat} {test yes no : List Lexeme} {t a b : Expr} :
      Derives n (.form (.level .or)) test t → Derives n (.form .expression) yes a →
      Derives n (.form .expression) no b →
      Derives (n + 1) (.form .expression) (test ++ .punct .question :: (yes ++ .punct .colon :: no))
        (.conditional t a b)
  /-- A single operand of a level. -/
  | single {n : Nat} {l : Level} {used : List Lexeme} {e : Expr} :
      Derives n (.form l.operands) used e → Derives n (.form (.level l)) used e
  /-- An operator of a level, with the level itself on its left and an operand on its right. -/
  | operation {n : Nat} {l : Level} {left right : List Lexeme} {p : Punct} {build : Expr → Expr → Expr}
      {a b : Expr} : l.operator? p = some build →
      Derives n (.form (.level l)) left a → Derives n (.form l.operands) right b →
      Derives n (.form (.level l)) (left ++ .punct p :: right) (build a b)
  /-- An operand without a prefix operator. -/
  | unsigned {n : Nat} {used : List Lexeme} {e : Expr} :
      Derives n (.form .accessed) used e → Derives n (.form .operand) used e
  /-- A prefix operator in front of an operand. -/
  | signed {n : Nat} {used : List Lexeme} {p : Punct} {op : UnaryOp} {e : Expr} :
      UnaryOp.ofPunct? p = some op → Derives n (.form .operand) used e →
      Derives (n + 1) (.form .operand) (.punct p :: used) (.unary op e)
  /-- A primary expression without member accesses. -/
  | unaccessed {n : Nat} {used : List Lexeme} {e : Expr} :
      Derives n (.form .primary) used e → Derives n (.form .accessed) used e
  /-- A member under a name; any name will do, that of a constant or of a function included. -/
  | member {n : Nat} {used : List Lexeme} {e : Expr} {name : Text} :
      Derives n (.form .accessed) used e →
      Derives n (.form .accessed) (used ++ [.punct .dot, .word name]) (.member e (.literal (.text name)))
  /-- A member under a key that is computed. -/
  | index {n : Nat} {used key : List Lexeme} {e k : Expr} :
      Derives n (.form .accessed) used e → Derives n (.form .expression) key k →
      Derives n (.form .accessed) (used ++ .punct .openBracket :: (key ++ [.punct .closeBracket])) (.member e k)
  /-- A number. -/
  | number {n : Nat} {x : Number} : Derives n (.form .primary) [.number x] (.literal (.number x))
  /-- A string literal. -/
  | string {n : Nat} {t : Text} : Derives n (.form .primary) [.string t] (.literal (.text t))
  /-- A constant. -/
  | constant {n : Nat} {name : Text} {v : Value} : constant? name = some v →
      Derives n (.form .primary) [.word name] (.literal v)
  /-- The event. -/
  | event {n : Nat} : Derives n (.form .primary) [.word eventName] .event
  /-- A function and as many arguments as it takes. -/
  | call {n : Nat} {f : Builtin} {used : List Lexeme} {args : List Expr} :
      Derives n (.list .argument) used args → f.accepts args.length = true →
      Derives n (.form .primary) (.word f.name :: .punct .openParen :: (used ++ [.punct .closeParen]))
        (.call f args)
  /-- An expression in parentheses. -/
  | parentheses {n : Nat} {used : List Lexeme} {e : Expr} :
      Derives n (.form .expression) used e →
      Derives n (.form .primary) (.punct .openParen :: (used ++ [.punct .closeParen])) e
  /-- An array. -/
  | array {n : Nat} {used : List Lexeme} {items : List (Bool × Expr)} :
      Derives n (.list .item) used items →
      Derives n (.form .primary) (.punct .openBracket :: (used ++ [.punct .closeBracket])) (.array items)
  /-- An object. -/
  | object {n : Nat} {used : List Lexeme} {entries : List (Option Text × Expr)} :
      Derives n (.list .entry) used entries →
      Derives n (.form .primary) (.punct .openBrace :: (used ++ [.punct .closeBrace])) (.object entries)
  /-- An argument is an expression. -/
  | argument {n : Nat} {used : List Lexeme} {e : Expr} :
      Derives n (.form .expression) used e → Derives n (.element .argument) used e
  /-- A single item. -/
  | item {n : Nat} {used : List Lexeme} {e : Expr} :
      Derives n (.form .expression) used e → Derives n (.element .item) used (false, e)
  /-- An item that stands for all items of its value. -/
  | spreadItem {n : Nat} {used : List Lexeme} {e : Expr} :
      Derives n (.form .expression) used e → Derives n (.element .item) (.punct .ellipsis :: used) (true, e)
  /-- An entry under a key: a name, a string literal or a number. -/
  | entry {n : Nat} {first : Lexeme} {used : List Lexeme} {key : Text} {e : Expr} :
      keyText? first = some key → Derives n (.form .expression) used e →
      Derives n (.element .entry) (first :: .punct .colon :: used) (some key, e)
  /-- The event under its own name. -/
  | shorthand {n : Nat} : Derives n (.element .entry) [.word eventName] (some eventName, .event)
  /-- An entry that stands for all fields of its value. -/
  | spreadEntry {n : Nat} {used : List Lexeme} {e : Expr} :
      Derives n (.form .expression) used e → Derives n (.element .entry) (.punct .ellipsis :: used) (none, e)
  /-- No elements at all, or none after a last comma. -/
  | none {n : Nat} {k : Element} : Derives n (.list k) [] []
  /-- A last element without a comma. -/
  | last {n : Nat} {k : Element} {used : List Lexeme} {x : k.Tree} :
      Derives n (.element k) used x → Derives n (.list k) used [x]
  /-- An element and a comma in front of other elements. -/
  | more {n : Nat} {k : Element} {used others : List Lexeme} {x : k.Tree} {xs : List k.Tree} :
      Derives n (.element k) used x → Derives n (.list k) others xs →
      Derives n (.list k) (used ++ .punct .comma :: others) (x :: xs)

end Expression

end EventPipeline
