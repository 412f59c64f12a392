import EventPipeline.Expression.Evaluation
import EventPipeline.Expression.Lexer
import EventPipeline.Expression.Parser
import EventPipeline.Failure.Report

/-!
# Expressions

An expression is its trimmed text together with its tree. This module compiles texts and turns the
faults of lexing, parsing and evaluation into failures.
-/

namespace EventPipeline

/-- A compiled expression. -/
structure Expression where
  /-- The text, without whitespace around it. -/
  source : Text
  /-- The tree. -/
  tree : Expression.Expr

namespace Expression

/-! ### Compilation -/

/-- Why a value is no expression. -/
inductive SyntaxError where
  /-- The value is no text. -/
  | notText (v : Value)
  /-- The text has no tokens. -/
  | lexical (e : LexError)
  /-- The tokens are no expression. -/
  | grammatical (e : ParseError)
  /-- The tree is too high to be evaluated. -/
  | tooHigh

/-- The tree of a text. -/
def parse (t : Text) : Except SyntaxError Expr :=
  match lex t with
  | .error e => .error (.lexical e)
  | .ok tokens =>
    match parseTokens tokens with
    | .error e => .error (.grammatical e)
    | .ok e => if maxHeight < e.sweptHeight then .error .tooHigh else .ok e

/-- The expression of a text. -/
def compile (t : Text) : Except SyntaxError Expression :=
  (parse t).map fun e => ⟨t.strip, e⟩

/-! ### Faults in the text -/

/-- A lexeme as messages show it. -/
def Lexeme.quoted : Lexeme → Text
  | .number n => n.toText
  | .string t => t.quoted
  | .word t => t.quoted
  | .punct p => p.text.quoted

/-- A complaint of the parser in words. -/
def Complaint.message : Complaint → Text
  | .expected p => "Expected " ++ p.text.quoted
  | .tooDeep => "Expression nested too deeply (max " ++ Text.ofNat maxNesting ++ " levels)"
  | .empty => "Empty expression"
  | .unexpectedToken => "Unexpected token"
  | .propertyName => "Expected property name after '.'"
  | .unknownName name => "Unknown identifier " ++ name.quoted ++ " (only " ++ eventName.quoted ++ " is in scope)"
  | .notCalled f => "Function " ++ f.name.quoted ++ " must be called"
  | .propertyKey => "Expected property key"
  | .missingColon key => "Expected ':' after key " ++ key.quoted

/-- The position of the first of the tokens left, or the end of a text of the given length. -/
def positionOf (length : Nat) : List Token → Nat
  | [] => length
  | token :: _ => token.position

/-- What was found where the parser complains. -/
def foundText : List Token → Text
  | [] => "end of expression"
  | token :: _ => token.lexeme.quoted

/-- A failure in the text of an expression. -/
def syntaxFailure (message : Text) (details : Fields) (position : Option Nat) : Failure :=
  .structured (.expressionSyntax (position.map Int.ofNat)) message details none none

/-- The failure of a text that has no tokens. -/
def LexError.toFailure (t : Text) : LexError → Failure
  | .badEscape left => syntaxFailure "Invalid \\u escape in string" [] (some (t.length - left.length))
  | .unterminated left => syntaxFailure "Unterminated string literal" [] (some (t.length - left.length))
  | .unexpected s left =>
    syntaxFailure ("Unexpected character " ++ Text.quoted [s]) [] (some (t.length - left.length))
  | .looseDigit _ => .plain .assertion ""

/-- The failure of tokens that are no expression. -/
def ParseError.toFailure (t : Text) : ParseError → Failure
  | .unexpected c left =>
    let position := positionOf t.length left
    syntaxFailure (c.message ++ " at position " ++ Text.ofNat position ++ ", found " ++ foundText left)
      [("expression", .text t)] (some position)
  | .arity f count position =>
    syntaxFailure ("Function " ++ f.name.quoted ++ " called with " ++ Text.ofNat count ++ " argument(s)")
      [("expression", .text t), ("function", .text f.name)] (some position)

/-- The failure of a text that does not compile. -/
def SyntaxError.toFailure (t : Text) : SyntaxError → Failure
  | .notText v => syntaxFailure "Expression must be a string" [("expression", v)] none
  | .lexical e => e.toFailure t
  | .grammatical e => e.toFailure t
  | .tooHigh =>
    syntaxFailure ("Expression too long to evaluate (max " ++ Text.ofNat maxHeight ++ " nested operations)")
      [("expression", .text t)] (some 0)

/-- The expression of a value, which has to be a text. -/
def compileValue (v : Value) : Except Failure Expression :=
  match v with
  | .text t => (compile t).mapError (·.toFailure t)
  | v => .error (SyntaxError.toFailure [] (.notText v))

/-! ### Faults in evaluation -/

/-- The operator at fault, as data for diagnosis. -/
def operatorDetails (op : BinaryOp) : Fields := [("operator", .text op.sign)]

/-- The failure of the evaluation of an expression. -/
def EvalError.toFailure (source : Text) (e : EvalError) : Failure :=
  let failed (message : Text) (details : Fields) : Failure :=
    .structured .expressionEvaluation message (details.set "expression" (.text source)) none none
  match e with
  | .notNumbers op a b =>
    failed ("Operator " ++ op.sign.quoted ++ " requires numbers, got " ++ a.kind ++ " and " ++ b.kind)
      (operatorDetails op)
  | .divisionByZero op => failed ("Division by zero in " ++ op.sign.quoted) (operatorDetails op)
  | .incomparable op a b =>
    failed ("Cannot compare " ++ a.kind ++ " " ++ op.sign ++ " " ++ b.kind) (operatorDetails op)
  | .memberOfNull key => failed ("Cannot read property " ++ key.quoted ++ " of null") []
  | .memberOfScalar key target =>
    failed ("Cannot read property " ++ key.quoted ++ " of " ++ target.kind) [("type", .text target.kind)]
  | .unaryNotNumber op v => failed ("Unary " ++ op.sign.quoted ++ " requires a number, got " ++ v.kind) []
  | .spreadIntoArray v => failed ("Cannot spread " ++ v.kind ++ " into an array") []
  | .spreadIntoObject v => failed ("Cannot spread " ++ v.kind ++ " into an object") []
  | .caseOfNonText f v => failed (f.name ++ "() expects a string, got " ++ v.kind) []
  | .lengthOf v => failed ("len() expects a string, array or object, got " ++ v.kind) []
  | .absOf v => failed ("abs() expects a number, got " ++ v.kind) []
  | .roundArguments => failed "round() expects a number and an integer digit count" []
  | .noNumbers f => failed (f.name ++ "() expects one or more numbers") []
  | .unreadable t => failed ("number() cannot parse " ++ t.quoted) []
  | .notConvertible v => failed ("number() cannot convert " ++ v.kind) []
  | .arithmetic e => e.toFailure
  | .unhashable v => .plain .type ("unhashable type: " ++ v.tag.quoted)

/-- The value of an expression on an event, at a reading of the clock. -/
def evaluate (e : Expression) (now : Int) (event : Value) : Except Failure Value :=
  (e.tree.eval now event).mapError (·.toFailure e.source)

/-- Whether an expression is true of an event, at a reading of the clock. -/
def holds (e : Expression) (now : Int) (event : Value) : Except Failure Bool :=
  (e.evaluate now event).map truthy

end Expression

end EventPipeline
