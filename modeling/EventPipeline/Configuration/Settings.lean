import EventPipeline.Configuration.Merge
import EventPipeline.Text.Blank

/-!
# Settings

What the engine takes from the section `engine` of a configuration: the directory of spilled
events, the field that dates an event, and the capacity of the buffer where a pipeline names none.
The section is laid over built-in defaults and checked.
-/

namespace EventPipeline

/-- The settings of an engine. -/
structure Settings where
  /-- The directory of spilled events. -/
  spilloverDir : Text
  /-- The field of an event that dates it, in milliseconds. -/
  timestampField : Text
  /-- The capacity of a buffer that a pipeline does not name. -/
  defaultBufferCapacity : Nat
  deriving DecidableEq

namespace Settings

/-- The settings without any configuration. -/
def default : Settings := ⟨".streamsynth-spillover", "timestamp", 1000⟩

/-- The name of the section. -/
def sectionName : Text := "engine"

/-- The keys of the section. -/
def spilloverDirKey : Text := "spillover_dir"

/-- The key of the field that dates an event. -/
def timestampFieldKey : Text := "timestamp_field"

/-- The key of the capacity. -/
def capacityKey : Text := "default_buffer_capacity"

/-- The built-in section. -/
def defaultSection : Fields :=
  [(.name spilloverDirKey, .text default.spilloverDir),
   (.name timestampFieldKey, .text default.timestampField),
   (.name capacityKey, .nat default.defaultBufferCapacity)]

/-- The built-in configuration. -/
def defaultConfig : Value :=
  .object [(.name sectionName, .object defaultSection)]

/-- An empty value counts as no configuration. -/
def orEmpty (v : Value) : Value := if v.isFilled then v else .object []

/-- A value of the section that has to be a text with something in it. -/
def requireText (key : Text) (v : Value) : Except Failure Text :=
  match v with
  | .text t =>
    if t.isBlank then .error (refuse v) else .ok t
  | v => .error (refuse v)
where
  refuse (v : Value) : Failure :=
    .configuration ("engine." ++ key ++ " must be a non-empty string") [(.name key, v)] none

/-- A value of the section that has to be an integer from zero on. -/
def requireCapacity (key : Text) (v : Value) : Except Failure Nat :=
  match v with
  | .number (.int (.ofNat n)) => .ok n
  | v => .error (.configuration ("engine." ++ key ++ " must be an integer >= 0") [(.name key, v)] none)

/-- The fields of the section; an empty value counts as an empty section. -/
def sectionFields (v : Value) : Except Failure Fields :=
  match orEmpty v with
  | .object fields => .ok fields
  | v => .error (.plain .lacking (v.tag.quoted ++ " object has no attribute 'get'"))

/-- The settings in the fields of the section. -/
def ofFields (fields : Fields) : Except Failure Settings := do
  let value (key : Text) : Value := (fields.find? (.name key)).getD .null
  let spilloverDir ← requireText spilloverDirKey (value spilloverDirKey)
  let timestampField ← requireText timestampFieldKey (value timestampFieldKey)
  let capacity ← requireCapacity capacityKey (value capacityKey)
  return ⟨spilloverDir, timestampField, capacity⟩

/-- The settings of a configuration. -/
def resolve (config : Value) : Except Failure Settings := do
  let effective ← Configuration.merge defaultConfig (orEmpty config)
  let root := effective.asFields?.getD []
  let fields ← sectionFields ((root.find? (.name sectionName)).getD .null)
  ofFields fields

end Settings

end EventPipeline
