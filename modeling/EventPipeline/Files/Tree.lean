import EventPipeline.Failure.Basic
import EventPipeline.Files.Path
import EventPipeline.Text.Utf8

/-!
# Files

The files and directories below a working directory, and what the program does with them. Every
operation returns the tree that it leaves behind, also when it fails, since a failure may come
after an effect: a text that has no UTF-8 form is refused only after its file has been created.
-/

namespace EventPipeline

/-- A place below the working directory, as names from the outside in. -/
abbrev Location := List Text

/-- What stands at a location. -/
inductive Node where
  /-- A file with its text. -/
  | file (content : Text)
  /-- A directory. -/
  | directory
  deriving DecidableEq

/-- The files below a working directory. -/
structure FileTree where
  /-- The text of the working directory's absolute path. -/
  working : Text
  /-- All files and directories below it. -/
  nodes : Table Location Node
  deriving DecidableEq

/-- A step on files that may fail and leaves a tree in either case. -/
abbrev FileAction (α : Type) := ExceptT Failure (StateM FileTree) α

namespace FileError

/-- The number and the words of an error. -/
def words : FileError → Text
  | notFound => "[Errno 2] No such file or directory"
  | alreadyExists => "[Errno 17] File exists"
  | notDirectory => "[Errno 20] Not a directory"
  | isDirectory => "[Errno 21] Is a directory"
  | notEmpty => "[Errno 39] Directory not empty"

/-- The failure of an operation on a path. -/
def toFailure (e : FileError) (p : Path) : Failure :=
  .plain (.file e) (e.words ++ ": " ++ p.text.quoted)

end FileError

/-- The failure to encode a text whose first run without a UTF-8 form is given. -/
def Text.UnencodableRun.toFailure (run : Text.UnencodableRun) : Failure :=
  let place :=
    if run.length = 1 then
      "character '" ++ Text.codeEscape run.first.code ++ "' in position " ++ Text.ofNat run.start
    else
      "characters in position " ++ Text.ofNat run.start ++ "-" ++ Text.ofNat (run.start + run.length - 1)
  .plain .encoding ("'utf-8' codec can't encode " ++ place ++ ": surrogates not allowed")

namespace FileTree

/-! ### Looking -/

/-- What stands at a location; the working directory itself is a directory. -/
def nodeAt? (fs : FileTree) (loc : Location) : Option Node :=
  if loc = [] then some .directory else Table.find? fs.nodes loc

/-- The absolute path of a path. -/
def absolute (fs : FileTree) (p : Path) : Path := p.absoluteIn fs.working

/-- Follows names from a location on. All but the last have to be directories. Nothing is known
above the working directory. -/
def walk (fs : FileTree) : Location → List Text → Except FileError Location
  | loc, [] => .ok loc
  | loc, name :: names =>
    match fs.nodeAt? loc with
    | none => .error .notFound
    | some (.file _) => .error .notDirectory
    | some .directory =>
      if name = Path.up then
        if loc = [] then .error .notFound else walk fs loc.dropLast names
      else walk fs (loc ++ [name]) names

/-- The location of a path. -/
def locate (fs : FileTree) (p : Path) : Except FileError Location :=
  if p.lead = [] ∨ p.lead = fs.working ++ "/" then fs.walk [] p.names else .error .notFound

/-- What stands at a path. -/
def node? (fs : FileTree) (p : Path) : Option Node :=
  match fs.locate p with
  | .ok loc => fs.nodeAt? loc
  | .error _ => none

/-- A file stands at the path. -/
def isFile (fs : FileTree) (p : Path) : Bool :=
  match fs.node? p with
  | some (.file _) => true
  | _ => false

/-- A directory stands at the path. -/
def isDirectory (fs : FileTree) (p : Path) : Bool :=
  fs.node? p == some .directory

/-- Something stands directly in the directory at a location. -/
def hasChildren (fs : FileTree) (loc : Location) : Bool :=
  fs.nodes.any fun entry => entry.1.dropLast = loc && entry.1 ≠ []

/-! ### Changing -/

/-- The tree with a node at a location. -/
def put (fs : FileTree) (loc : Location) (node : Node) : FileTree :=
  { fs with nodes := fs.nodes.set loc node }

/-- The tree without a location. -/
def remove (fs : FileTree) (loc : Location) : FileTree :=
  { fs with nodes := fs.nodes.erase loc }

/-- The content of a file. -/
def read (p : Path) : FileAction Text := do
  let fs ← get
  match fs.locate p with
  | .error e => throw (e.toFailure p)
  | .ok loc =>
    match fs.nodeAt? loc with
    | some (.file content) => return content
    | some .directory => throw (FileError.isDirectory.toFailure p)
    | none => throw (FileError.notFound.toFailure p)

/-- Opens a file for writing: creates it if it is missing and computes its first content. -/
def openFile (p : Path) (start : Text → Text) : FileAction Unit := do
  let fs ← get
  match fs.locate p with
  | .error e => throw (e.toFailure p)
  | .ok loc =>
    match fs.nodeAt? loc with
    | some .directory => throw (FileError.isDirectory.toFailure p)
    | some (.file content) => set (fs.put loc (.file (start content)))
    | none => set (fs.put loc (.file (start [])))

/-- Adds a text at the end of an open file; a text without a UTF-8 form is refused as a whole. -/
def extend (p : Path) (t : Text) : FileAction Unit := do
  match Text.unencodableRun? t with
  | some run => throw run.toFailure
  | none => openFile p (· ++ t)

/-- Writes a file anew. The file is emptied before the text is encoded. -/
def write (p : Path) (t : Text) : FileAction Unit := do
  openFile p fun _ => []
  extend p t

/-- Makes a directory in an existing one; one that is there already is left alone. -/
def makeDirectory (p : Path) : FileAction Unit := do
  let fs ← get
  match fs.locate p with
  | .error e => throw (e.toFailure p)
  | .ok loc =>
    match fs.nodeAt? loc with
    | some .directory => return ()
    | some (.file _) => throw (FileError.alreadyExists.toFailure p)
    | none => set (fs.put loc .directory)

/-- Makes a directory and all missing ones above it, of which `levels` are tried. -/
def makeDirectories : Nat → Path → FileAction Unit
  | 0, p => makeDirectory p
  | levels + 1, p => do
    let fs ← get
    match fs.locate p with
    | .error .notFound =>
      makeDirectories levels p.parent
      makeDirectory p
    | _ => makeDirectory p

/-- Makes the directory of a path and all missing ones above it. -/
def makePath (p : Path) : FileAction Unit :=
  makeDirectories p.names.length p

/-- Writes a file anew, making its directory first. -/
def save (p : Path) (t : Text) : FileAction Unit := do
  makePath p.parent
  write p t

/-- Removes a file; one that is missing is left alone. -/
def unlink (p : Path) : FileAction Unit := do
  let fs ← get
  match fs.locate p with
  | .error .notFound => return ()
  | .error e => throw (e.toFailure p)
  | .ok loc =>
    match fs.nodeAt? loc with
    | some .directory => throw (FileError.isDirectory.toFailure p)
    | some (.file _) => set (fs.remove loc)
    | none => return ()

/-- Removes a directory if it is there and nothing stands in it. -/
def removeIfEmpty (p : Path) : FileAction Unit := do
  let fs ← get
  match fs.locate p with
  | .error _ => return ()
  | .ok loc =>
    if fs.nodeAt? loc = some .directory ∧ fs.hasChildren loc = false then set (fs.remove loc) else return ()

/-! ### Making -/

/-- An empty working directory. -/
def empty (working : Text) : FileTree := ⟨working, []⟩

/-- A working directory with the given files in it, as far as they can be written. -/
def ofFiles (working : Text) (files : List (Path × Text)) : FileTree :=
  files.foldl (fun fs (p, t) => ((save p t).run.run fs).2) (empty working)

end FileTree

end EventPipeline
