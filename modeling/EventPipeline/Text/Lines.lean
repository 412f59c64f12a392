import EventPipeline.Text.Blank

/-!
# Lines

Two ways to cut a text into lines. A document is cut at every separator of `Symbol.endsLine`. A
file is cut at line feeds, carriage returns and pairs of them; read as a whole, each of these
becomes a line feed.
-/

namespace EventPipeline

namespace Text

/-- The lines of a document, without their separators; a pair `\r\n` is one separator, and a
separator at the end opens no further line. -/
def documentLines : Text → List Text
  | [] => []
  | .char '\r' :: .char '\n' :: t => [] :: documentLines t
  | c :: t =>
    if c.endsLine then [] :: documentLines t
    else match t, documentLines t with
      | _ :: _, line :: lines => (c :: line) :: lines
      | _, lines => [c] :: lines

/-- The text with every line end of a file turned into a line feed. -/
def foldLineEnds : Text → Text
  | [] => []
  | .char '\r' :: .char '\n' :: t => .char '\n' :: foldLineEnds t
  | .char '\r' :: t => .char '\n' :: foldLineEnds t
  | c :: t => c :: foldLineEnds t

/-- The lines of a file, each with its own line end; the last line may have none. -/
def fileLines : Text → List Text
  | [] => []
  | .char '\r' :: .char '\n' :: t => [.char '\r', .char '\n'] :: fileLines t
  | .char '\r' :: t => [.char '\r'] :: fileLines t
  | .char '\n' :: t => [.char '\n'] :: fileLines t
  | c :: t =>
    match t, fileLines t with
    | _ :: _, line :: lines => (c :: line) :: lines
    | _, lines => [c] :: lines

example : documentLines "a\r\nb\u2028\nc\n" = (["a", "b", "", "c"] : List Text) := by decide
example : documentLines "\n" = ([""] : List Text) ∧ documentLines "" = [] := by decide
example : fileLines "a\r\nb\r\u2028\nc" = (["a\r\n", "b\r", "\u2028\n", "c"] : List Text) := by decide
example : foldLineEnds "a\r\r\nb\n\r" = "a\n\nb\n\n" := by decide

end Text

end EventPipeline
