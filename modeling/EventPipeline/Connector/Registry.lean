import EventPipeline.Connector.Descriptor

/-!
# Registries

A registry knows, for each end of a pipeline, how connectors of a type are made from their
configuration. A name stands for at most one type at each end.
-/

namespace EventPipeline

/-- Makes a connector from its configuration, as seen from a working directory. -/
abbrev Factory (α : Type) := (working : Text) → Fields → Except Failure α

/-- The types of connectors of either end, by name. -/
structure Registry (σ κ : Type) where
  /-- The types of sources. -/
  sources : Table Text (Factory σ)
  /-- The types of sinks. -/
  sinks : Table Text (Factory κ)

namespace Registry

variable {σ κ α : Type}

/-- A registry without any type. -/
def empty : Registry σ κ := ⟨[], []⟩

/-- A registry whose connectors are taken as connectors of wider types. -/
def map {σ' κ' : Type} (f : σ → σ') (g : κ → κ') (r : Registry σ κ) : Registry σ' κ' where
  sources := r.sources.map fun (name, make) => (name, fun working config => (make working config).map f)
  sinks := r.sinks.map fun (name, make) => (name, fun working config => (make working config).map g)

/-! ### Registration -/

/-- A name is refused because it is none. -/
def noName (role : Role) (name : Value) : Failure :=
  .configuration "connector name must be a non-empty string"
    [("role", .text role.name), ("name", name)] none

/-- A name is refused because it is taken. -/
def nameTaken (role : Role) (name : Text) : Failure :=
  .structured (.duplicateConnector (some name) (some role.name))
    ("Duplicate " ++ role.name ++ " connector: " ++ name)
    [("role", .text role.name), ("type", name)] (some "Use a different name or a fresh registry") none

/-- Enters a type under a name. -/
def enter (role : Role) (name : Value) (make : Factory α) (types : Table Text (Factory α)) :
    Except Failure (Table Text (Factory α)) :=
  match name with
  | .text t =>
    if t.isBlank then .error (noName role name)
    else if types.contains t then .error (nameTaken role t)
    else .ok (types.set t make)
  | v => .error (noName role v)

/-- Registers a type of sources. -/
def registerSource (name : Value) (make : Factory σ) (r : Registry σ κ) : Except Failure (Registry σ κ) := do
  let sources ← enter .source name make r.sources
  return { r with sources := sources }

/-- Registers a type of sinks. -/
def registerSink (name : Value) (make : Factory κ) (r : Registry σ κ) : Except Failure (Registry σ κ) := do
  let sinks ← enter .sink name make r.sinks
  return { r with sinks := sinks }

/-- The names of the types of sources, in order. -/
def sourceNames (r : Registry σ κ) : List Text := Text.sort r.sources.keys

/-- The names of the types of sinks, in order. -/
def sinkNames (r : Registry σ κ) : List Text := Text.sort r.sinks.keys

/-! ### Creation -/

/-- A type is refused because nobody registered it. -/
def unknownType (role : Role) (type : Text) (known : List Text) : Failure :=
  .structured (.unknownConnector (some type) (some role.name))
    ("Unknown " ++ role.name ++ " type: " ++ type)
    [("type", type), ("available", .array (known.map Value.text))]
    (some ("Register a " ++ role.name ++ " factory for '" ++ type ++ "' or use one of " ++ Text.quotedList known))
    none

/-- A connector could not be made. -/
def notMade (role : Role) (type : Text) (reason : Failure) : Failure :=
  .structured (.connectorInit (some type) (some role.name))
    ("Failed to initialize " ++ role.name ++ ": " ++ reason.message)
    [("type", type), ("exception_class", reason.name)] none (some reason.asCause)

/-- Makes the connector of a descriptor. -/
def create (role : Role) (working : Text) (d : Descriptor) (types : Table Text (Factory α)) : Except Failure α :=
  match types.find? d.type with
  | none => .error (unknownType role d.type (Text.sort types.keys))
  | some make => (make working d.config).mapError (notMade role d.type)

/-- Makes the source of a descriptor. -/
def createSource (r : Registry σ κ) (working : Text) (d : Descriptor) : Except Failure σ :=
  create .source working d r.sources

/-- Makes the sink of a descriptor. -/
def createSink (r : Registry σ κ) (working : Text) (d : Descriptor) : Except Failure κ :=
  create .sink working d r.sinks

end Registry

end EventPipeline
