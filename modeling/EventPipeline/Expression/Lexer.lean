import EventPipeline.Expression.Token
import EventPipeline.Number.Reading

/-!
# Lexing

A text is cut into tokens from left to right. Whitespace of any script separates tokens and is
dropped; numbers and names are as long as they can be, a punctuator is the longest one that the
rest of the text starts with, and a string literal runs to the first quote of its own kind that no
backslash precedes.
-/

namespace EventPipeline

namespace Expression

/-- Why a text has no tokens, with the text that was left where the fault lies. -/
inductive LexError where
  /-- A `\u` is not followed by four hexadecimal digits. -/
  | badEscape (left : Text)
  /-- A string literal has no end on its line. -/
  | unterminated (left : Text)
  /-- No token starts with the first symbol. -/
  | unexpected (symbol : Symbol) (left : Text)
  /-- A sign that is a digit, but not a decimal one, stands where a number could start. -/
  | looseDigit (left : Text)

/-! ### Numbers -/

/-- The numeral at the start of a text: an integer if it has neither a point nor an exponent. -/
def readNumeral? (t : Text) : Option (Number × Text) :=
  let whole := t.takeWhile Symbol.isDecimal
  let rest := t.dropWhile Symbol.isDecimal
  let (hasPoint, fraction, rest) := match rest with
    | .char '.' :: r =>
      let ds := r.takeWhile Symbol.isDecimal
      if whole.isEmpty && ds.isEmpty then (false, [], rest) else (true, ds, r.dropWhile Symbol.isDecimal)
    | _ => (false, [], rest)
  if whole.isEmpty && fraction.isEmpty then none
  else
    let (exponent, after) := Binary64.readExponent Symbol.isDecimal rest
    if hasPoint || after.length != rest.length then
      some (.float (Binary64.Numeral.value false ⟨whole, fraction, exponent⟩), after)
    else some (.int (digitsValue whole), after)

/-- A number starts here: with a digit, or with a point before a digit. -/
def startsNumber : Text → Bool
  | .char '.' :: d :: _ => d.isDigit
  | s :: _ => s.isDigit
  | [] => false

/-! ### Names -/

/-- A symbol that a name may start with. -/
def startsName : Symbol → Bool
  | .char c => c.isAlpha || c == '_' || c == '$'
  | .surrogate _ => false

/-- A symbol that a name may go on with. -/
def continuesName : Symbol → Bool
  | .char c => c.isAlphanum || c == '_' || c == '$'
  | .surrogate _ => false

/-! ### String literals -/

/-- The value of four hexadecimal digits. -/
def hexValue4? (a b c d : Symbol) : Option Nat :=
  match a.hexValue?, b.hexValue?, c.hexValue?, d.hexValue? with
  | some w, some x, some y, some z => some (((w * 16 + x) * 16 + y) * 16 + z)
  | _, _, _, _ => none

/-- The symbol that a backslash and another symbol stand for. -/
def resolveEscape : Symbol → Symbol
  | .char 'n' => .char '\n'
  | .char 't' => .char '\t'
  | .char 'r' => .char '\r'
  | .char 'b' => .char '\x08'
  | .char 'f' => .char '\x0c'
  | .char '0' => .char '\x00'
  | s => s

/-- Puts a symbol in front of the content of a literal. -/
def prepend (s : Symbol) : Except LexError (Text × Text) → Except LexError (Text × Text)
  | .ok (content, rest) => .ok (s :: content, rest)
  | .error e => .error e

/-- The content of a string literal after its opening quote, and what follows its closing quote.
`opening` is the text from the opening quote on. -/
def readLiteral (quote : Char) (opening : Text) : Text → Except LexError (Text × Text)
  | [] => .error (.unterminated opening)
  | [.char '\\'] => .error (.unterminated opening)
  | .char '\\' :: .char 'u' :: a :: b :: c :: d :: rest =>
    match hexValue4? a b c d with
    | some n => prepend (Symbol.ofCode n) (readLiteral quote opening rest)
    | none => .error (.badEscape (.char '\\' :: .char 'u' :: a :: b :: c :: d :: rest))
  | .char '\\' :: .char 'u' :: rest => .error (.badEscape (.char '\\' :: .char 'u' :: rest))
  | .char '\\' :: s :: rest => prepend (resolveEscape s) (readLiteral quote opening rest)
  | s :: rest =>
    if s = .char quote then .ok ([], rest)
    else if s = .char '\n' then .error (.unterminated opening)
    else prepend s (readLiteral quote opening rest)

/-! ### Tokens -/

/-- The first punctuator of the list that a text starts with, and what follows it. -/
def readPunct? (t : Text) : Option (Punct × Text) :=
  Punct.all.findSome? fun p => (t.after? p.text).map fun rest => (p, rest)

/-- The lexeme at the start of a text that starts with no blank, and what follows it. -/
def readLexeme (t : Text) : Except LexError (Lexeme × Text) :=
  match t with
  | [] => .error (.unterminated t)
  | s :: rest =>
    if startsNumber t then
      match readNumeral? t with
      | some (n, rest) => .ok (.number n, rest)
      | none => .error (.looseDigit t)
    else if startsName s then .ok (.word (t.takeWhile continuesName), t.dropWhile continuesName)
    else
      let literal (quote : Char) := (readLiteral quote t rest).map fun (content, rest) => (.string content, rest)
      match s with
      | .char '"' => literal '"'
      | .char '\'' => literal '\''
      | _ =>
        match readPunct? t with
        | some (p, rest) => .ok (.punct p, rest)
        | none => .error (.unexpected s t)

/-- The tokens of a text, the last part of a text of length `total`. -/
def lexFrom (total : Nat) : Nat → Text → Except LexError (List Token)
  | 0, _ => .ok []
  | fuel + 1, t =>
    match t with
    | [] => .ok []
    | s :: rest =>
      if s.isBlank then lexFrom total fuel rest
      else
        match readLexeme t with
        | .error e => .error e
        | .ok (lexeme, rest) =>
          match lexFrom total fuel rest with
          | .error e => .error e
          | .ok tokens => .ok (⟨lexeme, total - t.length⟩ :: tokens)

/-- The tokens of a text, in order. -/
def lex (t : Text) : Except LexError (List Token) :=
  lexFrom t.length t.length t

end Expression

end EventPipeline
