import EventPipeline.Number.Basic

/-!
# Tokens

The words of the expression language: numbers, string literals, names and punctuators, each with
the position of its first symbol.
-/

namespace EventPipeline

namespace Expression

/-- A punctuator. -/
inductive Punct where
  | strictEq | strictNe | ellipsis
  | eq | ne | le | ge | and | or
  | lt | gt | plus | minus | star | slash | percent | not | question | colon
  | dot | comma | openParen | closeParen | openBracket | closeBracket | openBrace | closeBrace
  deriving DecidableEq

namespace Punct

/-- The symbols of a punctuator. -/
def chars : Punct → List Char
  | strictEq => ['=', '=', '=']
  | strictNe => ['!', '=', '=']
  | ellipsis => ['.', '.', '.']
  | eq => ['=', '=']
  | ne => ['!', '=']
  | le => ['<', '=']
  | ge => ['>', '=']
  | and => ['&', '&']
  | or => ['|', '|']
  | lt => ['<']
  | gt => ['>']
  | plus => ['+']
  | minus => ['-']
  | star => ['*']
  | slash => ['/']
  | percent => ['%']
  | not => ['!']
  | question => ['?']
  | colon => [':']
  | dot => ['.']
  | comma => [',']
  | openParen => ['(']
  | closeParen => [')']
  | openBracket => ['[']
  | closeBracket => [']']
  | openBrace => ['\x7b']
  | closeBrace => ['\x7d']

/-- The text of a punctuator. -/
def text (p : Punct) : Text := p.chars.map .char

/-- All punctuators, longer ones first. -/
def all : List Punct :=
  [strictEq, strictNe, ellipsis, eq, ne, le, ge, and, or, lt, gt, plus, minus, star, slash, percent,
   not, question, colon, dot, comma, openParen, closeParen, openBracket, closeBracket, openBrace,
   closeBrace]

theorem mem_all (p : Punct) : p ∈ all := by
  cases p <;> decide

end Punct

/-- What a token is. -/
inductive Lexeme where
  /-- A number. -/
  | number (n : Number)
  /-- A string literal, its escapes resolved. -/
  | string (t : Text)
  /-- A name. -/
  | word (t : Text)
  /-- A punctuator. -/
  | punct (p : Punct)
  deriving DecidableEq

/-- A token and the position of its first symbol. -/
structure Token where
  /-- What the token is. -/
  lexeme : Lexeme
  /-- The position of its first symbol. -/
  position : Nat
  deriving DecidableEq

end Expression

end EventPipeline
