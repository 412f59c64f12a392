import EventPipeline.Text.Casing

/-!
# Paths

A path is a list of names after a lead: nothing for a relative path, a slash for an absolute one.
Empty names and single points are dropped when a path is read; a double point stays, since what it
means depends on the directories.
-/

namespace EventPipeline

/-- A path of a file or a directory. -/
structure Path where
  /-- What the text of the path starts with: nothing, or the absolute start up to a slash. -/
  lead : Text
  /-- The names, from the outermost directory on. -/
  names : List Text
  deriving DecidableEq

namespace Path

/-- The name that stands for the directory above. -/
def up : Text := ".."

/-- The path that a text writes. -/
def ofText (t : Text) : Path :=
  let names := (t.splitOn (· == .char '/')).filter fun name => name ≠ [] ∧ name ≠ "."
  match t with
  | .char '/' :: _ => ⟨"/", names⟩
  | _ => ⟨[], names⟩

/-- The path does not start at the working directory. -/
def isAbsolute (p : Path) : Bool := !p.lead.isEmpty

/-- The text of a path. -/
def text (p : Path) : Text :=
  match p.names with
  | [] =>
    if p.lead.isEmpty then "."
    else if p.lead.length = 1 then p.lead
    else p.lead.dropLast
  | names => p.lead ++ Text.join "/" names

/-- The path as seen from a working directory. -/
def absoluteIn (working : Text) (p : Path) : Path :=
  if p.isAbsolute then p else { p with lead := working ++ "/" }

/-- The last name, empty if there is none. -/
def name (p : Path) : Text := p.names.getLast?.getD []

/-- The last name from its last point on, if that point is neither first nor last in it. -/
def suffix (p : Path) : Text :=
  let fromEnd := p.name.reverse
  let tail := fromEnd.takeWhile (· != .char '.')
  if tail.isEmpty || p.name.length ≤ tail.length + 1 then []
  else .char '.' :: tail.reverse

/-- The directory of the path. -/
def parent (p : Path) : Path := { p with names := p.names.dropLast }

/-- The path of a name below a path. -/
def child (p : Path) (name : Text) : Path := { p with names := p.names ++ [name] }

example : (ofText "./a//b.tar.gz").text = "a/b.tar.gz" ∧ (ofText "./a//b.tar.gz").suffix = ".gz" := by decide
example : (ofText "").text = "." ∧ (ofText ".json").suffix = "" ∧ (ofText "a.").suffix = "" := by decide

end Path

end EventPipeline
