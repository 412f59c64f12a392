import EventPipeline.Failure.Basic

/-!
# Merging configurations

An override is laid over a base, field by field. Two objects merge recursively; a new key, a base
that is null, and an override that is null or an array simply take the override's value; all other
values have to be of one kind, integers and double precision numbers being one kind. The first
field of the override, in its own order, that does not fit is the conflict.
-/

namespace EventPipeline

namespace Configuration

/-- Two values that do not fit together, at a path of keys. -/
structure Conflict where
  /-- The keys that lead to the values, from the outside in. -/
  path : List Key
  /-- The value of the base. -/
  base : Value
  /-- The value of the override. -/
  override : Value
  deriving DecidableEq

/-- The conflict seen from one level further out. -/
def Conflict.under (key : Key) (c : Conflict) : Conflict := { c with path := key :: c.path }

/-- The kinds of values that a merge tells apart. -/
inductive Kind where
  | null | truth | number | text | array | object
  deriving DecidableEq

/-- The kind of a value. -/
def kindOf : Value → Kind
  | .null => .null
  | .bool _ => .truth
  | .number _ => .number
  | .text _ => .text
  | .array _ => .array
  | .object _ => .object

mutual

/-- The value of a key whose base may be missing, laid over by an override. -/
def mergeValue (base : Option Value) : Value → Except Conflict Value
  | .object fields =>
    match base with
    | none | some .null => .ok (.object fields)
    | some (.object current) => (mergeFields current fields).map .object
    | some other => .error ⟨[], other, .object fields⟩
  | v =>
    match base with
    | none | some .null => .ok v
    | some current =>
      if kindOf v = .null ∨ kindOf v = .array ∨ kindOf current = kindOf v then .ok v
      else .error ⟨[], current, v⟩

/-- The fields of a base with the fields of an override laid over them, one after the other. -/
def mergeFields (base : Fields) : List (Key × Value) → Except Conflict Fields
  | [] => .ok base
  | (key, v) :: rest =>
    match mergeValue (base.find? key) v with
    | .error c => .error (c.under key)
    | .ok merged => mergeFields (base.set key merged) rest

end

/-! ### Failures -/

/-- A key without quotes. -/
def keyText : Key → Text
  | .name t => t
  | .surplus => Key.surplus.quoted

/-- The path of a conflict with points between its keys. -/
def Conflict.dotted (c : Conflict) : Text := Text.join "." (c.path.map keyText)

/-- The failure of a conflict. -/
def Conflict.toFailure (c : Conflict) : Failure :=
  .config .typeConflict
    ("Type conflict at '" ++ c.dotted ++ "': " ++ c.base.tag ++ " vs " ++ c.override.tag) none (some c.dotted)

/-- An override laid over a base, both of which have to be objects. -/
def merge (base override : Value) : Except Failure Value :=
  match base, override with
  | .object b, .object o => ((mergeFields b o).map .object).mapError Conflict.toFailure
  | b, o => .error (.config .typeConflict ("deep_merge expects mappings, got " ++ b.tag ++ " and " ++ o.tag) none none)

end Configuration

end EventPipeline
