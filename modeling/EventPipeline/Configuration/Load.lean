import EventPipeline.Configuration.Merge
import EventPipeline.Configuration.Yaml
import EventPipeline.Files.Tree
import EventPipeline.Json.Reader
import EventPipeline.Text.Lines

/-!
# Configuration files

A configuration comes from a file of defaults, which has to exist, and a local file, which is laid
over the defaults if it exists. The suffix of a file decides how it is read; an empty document is
an empty configuration.
-/

namespace EventPipeline

namespace Configuration

/-- How a file is written. -/
inductive Format where
  | json | yaml
  deriving DecidableEq

/-- The suffixes of configuration files, in order. -/
def suffixes : List (Text × Format) := [(".json", .json), (".yaml", .yaml), (".yml", .yaml)]

/-- The value of a text, or what is wrong with it. -/
def parse (format : Format) (t : Text) : Except Text Value :=
  match format with
  | .json => (Json.read t).mapError Json.Error.message
  | .yaml =>
    match Yaml.read? t with
    | some v => .ok v
    | none => .error "malformed document"

/-- The fields of the configuration in a file. -/
def loadFile (fs : FileTree) (path : Path) : Except Failure Fields :=
  let refuse (concern : ConfigConcern) (message : Text) : Except Failure Fields :=
    .error (.config concern message (some path.text) none)
  match fs.node? path with
  | some (.file content) =>
    match suffixes.lookup path.suffix.lower with
    | none =>
      refuse .unsupportedFormat ("Unsupported config format '" ++ path.suffix ++ "' (expected one of "
        ++ Text.quotedList (suffixes.map (·.1)) ++ ")")
    | some format =>
      match parse format content.foldLineEnds with
      | .error words => refuse .malformed ("Malformed config file " ++ path.text ++ ": " ++ words)
      | .ok .null => .ok []
      | .ok (.object fields) => .ok fields
      | .ok v => refuse .rootType ("Config root must be a mapping, got " ++ v.tag ++ ": " ++ path.text)
  | _ => refuse .notFound ("Config file not found: " ++ path.text)

/-- The configuration of a file of defaults and a local file, if there is one. -/
def load (fs : FileTree) (defaults : Path) (loc : Option Path) : Except Failure Value := do
  let config ← loadFile fs defaults
  match loc with
  | none => return .object config
  | some path =>
    if fs.isFile path then
      let more ← loadFile fs path
      merge (.object config) (.object more)
    else return .object config

end Configuration

end EventPipeline
