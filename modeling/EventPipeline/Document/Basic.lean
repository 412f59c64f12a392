import EventPipeline.Document.Directive
import EventPipeline.Files.Tree
import EventPipeline.Text.Lines

/-!
# Pipeline documents

A document describes a pipeline line by line. Blank lines and lines that start with a number sign
say nothing. The first line that is at fault decides, and nothing is built before all lines have
been read: a document gives a whole definition or the failure of one line. No end may be named
twice; a document may leave an end out.
-/

namespace EventPipeline

namespace Document

/-- The line of a document without whitespace around it, if it says anything. -/
def meaningful? (raw : Text) : Option Text :=
  match raw.strip with
  | [] | .char '#' :: _ => none
  | line => some line

/-- The directive of one line, given the lines on which ends have been named before. -/
def readDirective (seen : Table Role Nat) (number : Nat) (line : Text) : Except Failure Directive :=
  match readLine line with
  | .error fault => .error (fault.toFailure number line)
  | .ok command =>
    match command.role?.bind fun role => (seen.find? role).map fun first => (role, first) with
    | some (role, first) => .error ((Fault.duplicate role first).toFailure number line)
    | none => .ok ⟨number, line, command⟩

/-- The lines on which ends are named, after one more directive. -/
def Directive.mark (d : Directive) (seen : Table Role Nat) : Table Role Nat :=
  match d.command.role? with
  | some role => seen.set role d.number
  | none => seen

/-- The directives of lines, the first of which has the given number. -/
def readLines (seen : Table Role Nat) (number : Nat) : List Text → Except Failure (List Directive)
  | [] => .ok []
  | raw :: rest =>
    match meaningful? raw with
    | none => readLines seen (number + 1) rest
    | some line => do
      let d ← readDirective seen number line
      let ds ← readLines (d.mark seen) (number + 1) rest
      return d :: ds

/-- The directives of a document. -/
def directives (t : Text) : Except Failure (List Directive) :=
  readLines [] 1 t.documentLines

/-- The definition with a directive carried out, at a reading of the clock. -/
def Directive.apply (now : Int) (p : Definition) (d : Directive) : Except Failure Definition :=
  match d.command with
  | .connect role c => p.connect role (.text c.type) c.config
  | .stage .filter e => p.addStage (.filterBy e now e.source)
  | .stage .transform e => p.addStage (.transformBy e now e.source)
  | .bufferSize n => p.bufferSize (.nat n)

/-- The definition that a document describes, at a reading of the clock. -/
def compile (now : Int) (settings : Option Settings) (t : Text) : Except Failure Definition := do
  let ds ← directives t
  ds.foldlM (Directive.apply now) (Definition.ofSettings settings)

/-- The definition that a file describes. -/
def compileFile (now : Int) (settings : Option Settings) (path : Path) (fs : FileTree) :
    Except Failure Definition := do
  let content ← ((FileTree.read path).run.run fs).1
  compile now settings content.foldLineEnds

end Document

end EventPipeline
