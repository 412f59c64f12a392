import EventPipeline.Text.Printable

/-!
# Quoted texts

Messages show a text between single quotes, or between double quotes if it holds a single quote
and no double quote. A backslash and the chosen quote are escaped by a backslash, tabs and line
ends have short escapes, and any other symbol that is not printable is written by its code point
in hexadecimal, with two, four or eight digits.
-/

namespace EventPipeline

namespace Text

/-- The escape of a code point by its number. -/
def codeEscape (n : Nat) : Text :=
  if n ≤ 0xFF then "\\x" ++ hex 2 n
  else if n ≤ 0xFFFF then "\\u" ++ hex 4 n
  else "\\U" ++ hex 8 n

/-- How a symbol is written between the given quotes. -/
def quoteSymbol (quote : Char) (s : Symbol) : Text :=
  match s with
  | .char '\n' => "\\n"
  | .char '\r' => "\\r"
  | .char '\t' => "\\t"
  | .char '\\' => "\\\\"
  | .char c => if c = quote then [.char '\\', s] else if s.isPrintable then [s] else codeEscape c.toNat
  | .surrogate _ => codeEscape s.code

/-- The quote that a text is shown with. -/
def quoteFor (t : Text) : Char :=
  if t.contains (.char '\'') && !t.contains (.char '"') then '"' else '\''

/-- The text as messages show it. -/
def quoted (t : Text) : Text :=
  let quote := quoteFor t
  ofChar quote ++ t.flatMap (quoteSymbol quote) ++ ofChar quote

/-- A list of texts as messages show it. -/
def quotedList (ts : List Text) : Text :=
  "[" ++ join ", " (ts.map quoted) ++ "]"

example : quoted "it's" = "\"it's\"" := by decide
example : quoted "a\n\"'" = "'a\\n\"\\''" := by decide
example : quoted "\u00a0" = "'\\xa0'" := by decide

end Text

end EventPipeline
