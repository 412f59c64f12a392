import EventPipeline.Expression.Lexer
import EventPipeline.Proofs.Expression.Grammar

/-!
# Printing expressions

A tree as a text, with single spaces between the tokens and with as few parentheses as possible: a subtree
stands in parentheses exactly if its own form is looser than the form that its position asks for.

    position                                      form asked for
    left operand of a level                       the level itself
    right operand of a level                      the operands of the level
    test of a conditional                         the loosest level
    operand of a prefix operator                  operand
    target of a member access                     accessed
    branches, arguments, items, entries, keys     any expression

A member under a name is written with a point, the event under its own name in an object as that name
alone. The text is unambiguous only for trees that are read from a text; a literal array, say, has no text
of its own.
-/

namespace EventPipeline

namespace Expression

/-! ### Operators -/

/-- The level of an operator. -/
def BinaryOp.level : BinaryOp → Level
  | eq | ne | strictEq | strictNe => .equality
  | lt | le | gt | ge => .comparison
  | add | sub => .sum
  | mul | div | rem => .product

/-- The punctuator of an operator. -/
def BinaryOp.punct : BinaryOp → Punct
  | eq => .eq
  | ne => .ne
  | strictEq => .strictEq
  | strictNe => .strictNe
  | lt => .lt
  | le => .le
  | gt => .gt
  | ge => .ge
  | add => .plus
  | sub => .minus
  | mul => .star
  | div => .slash
  | rem => .percent

/-- The level of an operator. -/
def LogicalOp.level : LogicalOp → Level
  | and => .and
  | or => .or

/-- The punctuator of an operator. -/
def LogicalOp.punct : LogicalOp → Punct
  | and => .and
  | or => .or

/-- The punctuator of an operator. -/
def UnaryOp.punct : UnaryOp → Punct
  | not => .not
  | neg => .minus
  | pos => .plus

/-! ### Forms -/

/-- The place of a form, counted from the loosest one. -/
def Form.rank : Form → Nat
  | expression => 0
  | level .or => 1
  | level .and => 2
  | level .equality => 3
  | level .comparison => 4
  | level .sum => 5
  | level .product => 6
  | operand => 7
  | accessed => 8
  | primary => 9

/-- The tightest form that a tree has without parentheses. -/
def Expr.form : Expr → Form
  | literal _ | event | call _ _ | array _ | object _ => .primary
  | member _ _ => .accessed
  | unary _ _ => .operand
  | binary op _ _ => .level op.level
  | logical op _ _ => .level op.level
  | conditional _ _ _ => .expression

/-! ### Lexemes -/

/-- A text that can be read as a name. -/
def isName : Text → Bool
  | [] => false
  | s :: t => startsName s && t.all continuesName

/-- The lexeme of a constant. -/
def literalLexeme : Value → Lexeme
  | .number n => .number n
  | .text t => .string t
  | .bool b => .word (if b then "true" else "false")
  | _ => .word "null"

/-- The lexemes of a tree where a form is asked for: in parentheses if the tree is looser. -/
def standing (f : Form) (e : Expr) (phrase : List Lexeme) : List Lexeme :=
  if f.rank ≤ e.form.rank then phrase else .punct .openParen :: (phrase ++ [.punct .closeParen])

/-- The lexemes of an access under a key. -/
def access (key : Expr) (phrase : List Lexeme) : List Lexeme :=
  match key with
  | .literal (.text name) =>
    if isName name then [.punct .dot, .word name] else .punct .openBracket :: (phrase ++ [.punct .closeBracket])
  | _ => .punct .openBracket :: (phrase ++ [.punct .closeBracket])

/-- The lexemes of an item. -/
def itemLexemes (spread : Bool) (phrase : List Lexeme) : List Lexeme :=
  if spread then .punct .ellipsis :: phrase else phrase

/-- The entry is the event under its own name. -/
def isShorthand : Option Text → Expr → Bool
  | some key, .event => key == eventName
  | _, _ => false

/-- The lexemes of an entry. -/
def entryLexemes (key : Option Text) (e : Expr) (phrase : List Lexeme) : List Lexeme :=
  match key with
  | none => .punct .ellipsis :: phrase
  | some k => if isShorthand key e then [.word eventName] else .string k :: .punct .colon :: phrase

/-- The lexemes of elements, with commas between them. -/
def listed : List (List Lexeme) → List Lexeme
  | [] => []
  | [phrase] => phrase
  | phrase :: phrases => phrase ++ .punct .comma :: listed phrases

namespace Expr

mutual

/-- The lexemes of a tree. -/
def phrase : Expr → List Lexeme
  | literal v => [literalLexeme v]
  | event => [.word eventName]
  | member target key => standing .accessed target target.phrase ++ access key key.phrase
  | call f args => .word f.name :: .punct .openParen :: (listed (phrases args) ++ [.punct .closeParen])
  | unary op operand => .punct op.punct :: standing .operand operand operand.phrase
  | binary op left right =>
    standing (.level op.level) left left.phrase ++ .punct op.punct :: standing op.level.operands right right.phrase
  | logical op left right =>
    standing (.level op.level) left left.phrase ++ .punct op.punct :: standing op.level.operands right right.phrase
  | conditional test yes no =>
    standing (.level .or) test test.phrase ++ .punct .question :: (yes.phrase ++ .punct .colon :: no.phrase)
  | array items => .punct .openBracket :: (listed (itemPhrases items) ++ [.punct .closeBracket])
  | object entries => .punct .openBrace :: (listed (entryPhrases entries) ++ [.punct .closeBrace])

/-- The lexemes of several trees. -/
def phrases : List Expr → List (List Lexeme)
  | [] => []
  | e :: es => e.phrase :: phrases es

/-- The lexemes of several items. -/
def itemPhrases : List (Bool × Expr) → List (List Lexeme)
  | [] => []
  | (spread, e) :: items => itemLexemes spread e.phrase :: itemPhrases items

/-- The lexemes of several entries. -/
def entryPhrases : List (Option Text × Expr) → List (List Lexeme)
  | [] => []
  | (key, e) :: entries => entryLexemes key e e.phrase :: entryPhrases entries

end

end Expr

/-! ### Texts -/

/-- The text of a number without a sign; an infinity is written as a number that is too large. -/
def numeralText : Number → Text
  | .float (.infinite _) => "1e+999"
  | n => n.toText

/-- How a symbol is written inside a string literal. -/
def escapeSymbol : Symbol → Text
  | .char '\\' => "\\\\"
  | .char '"' => "\\\""
  | .char '\n' => "\\n"
  | s => [s]

/-- The text of a lexeme. -/
def Lexeme.print : Lexeme → Text
  | number n => numeralText n
  | string t => .char '"' :: (t.flatMap escapeSymbol ++ [.char '"'])
  | word t => t
  | punct p => p.text

/-- The text of lexemes, with spaces between them. -/
def printLexemes (used : List Lexeme) : Text := Text.join " " (used.map Lexeme.print)

/-- The text of a tree. -/
def Expr.print (e : Expr) : Text := printLexemes e.phrase

example : (Expr.binary .sub (.literal (.int 1)) (.binary .add (.member (.unary .neg .event) (.literal (.text "a b")))
    (.object [(some "event", .event), (some "x", .event)]))).print =
      "1 - ( ( - event ) [ \"a b\" ] + \x7b event , \"x\" : event \x7d )" := by decide

end Expression

end EventPipeline
