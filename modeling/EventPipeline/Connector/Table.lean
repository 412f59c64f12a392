import EventPipeline.Connector.Source
import EventPipeline.Text.Lines

/-!
# Cell tables

A text with one row of a table per line and commas between the cells. A cell that starts with a
double quote goes on to the next double quote, over commas and line ends; two double quotes inside
it stand for one. The first row names the columns, and every later row that is not empty is an
event with one field per column: cells that are missing are null, and surplus cells are kept
together under a key of their own.
-/

namespace EventPipeline

namespace CellTable

/-- Where the reader of a row stands. -/
inductive Place where
  /-- Before the first cell of a row. -/
  | row
  /-- Before a cell. -/
  | cell
  /-- In a cell without quotes, or after its closing quote. -/
  | plain
  /-- Between quotes. -/
  | quoted
  /-- After a quote between quotes. -/
  | quote
  /-- After a line end. -/
  | over
  deriving DecidableEq

/-- The reader of a row: where it stands, the cells so far, and the symbols of the current cell, in
reverse. -/
structure Reader where
  place : Place
  cells : List Text
  current : Text

/-- Before the first row. -/
def Reader.start : Reader := ⟨.row, [], []⟩

/-- The current cell is complete. -/
def Reader.save (r : Reader) (next : Place) : Reader := ⟨next, r.cells ++ [r.current.reverse], []⟩

/-- One more symbol in the current cell. -/
def Reader.add (r : Reader) (s : Symbol) (next : Place) : Reader := ⟨next, r.cells, s :: r.current⟩

/-- The symbol ends a line. -/
def endsRow (s : Symbol) : Bool := s == .char '\n' || s == .char '\r'

/-- Reads a symbol at the start of a cell. -/
def Reader.atCell (r : Reader) (s : Symbol) : Reader :=
  if endsRow s then r.save .over
  else if s = .char '"' then { r with place := .quoted }
  else if s = .char ',' then r.save .cell
  else r.add s .plain

/-- Reads a symbol. -/
def Reader.read (r : Reader) (s : Symbol) : Reader :=
  match r.place with
  | .row => if endsRow s then { r with place := .over } else r.atCell s
  | .cell => r.atCell s
  | .plain =>
    if endsRow s then r.save .over
    else if s = .char ',' then r.save .cell
    else r.add s .plain
  | .quoted => if s = .char '"' then { r with place := .quote } else r.add s .quoted
  | .quote =>
    if s = .char '"' then r.add s .quoted
    else if endsRow s then r.save .over
    else if s = .char ',' then r.save .cell
    else r.add s .plain
  | .over => r

/-- Reads the end of a line: the row is complete unless the line ends between quotes. -/
def Reader.endLine (r : Reader) : Reader :=
  match r.place with
  | .row | .over => { r with place := .row }
  | .cell | .plain | .quote => r.save .row
  | .quoted => r

/-- The rows of lines. A row that still stands between quotes at the end is complete there. -/
def rowsFrom (r : Reader) : List Text → List (List Text)
  | [] => if r.place = .quoted then [(r.save .row).cells] else []
  | line :: lines =>
    let r := (line.foldl Reader.read r).endLine
    if r.place = .row then r.cells :: rowsFrom .start lines else rowsFrom r lines

/-- The rows of a text. -/
def rows (t : Text) : List (List Text) := rowsFrom .start t.fileLines

/-- The event of a row under the given columns. -/
def eventOf (columns row : List Text) : Value :=
  let filled : Fields := (columns.zip row).foldl (fun fields (c, t) => Table.set fields (.name c) (.text t)) []
  if columns.length < row.length then
    .object (Table.set filled .surplus (.array ((row.drop columns.length).map Value.text)))
  else
    .object ((columns.drop row.length).foldl (fun fields c => Table.set fields (.name c) .null) filled)

/-- The events of a text. -/
def records (t : Text) : List Record :=
  match rows t with
  | [] => []
  | columns :: rest => (rest.filter (· ≠ [])).map fun row => .event (eventOf columns row)

end CellTable

end EventPipeline
