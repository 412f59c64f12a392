import EventPipeline.Json.Printer

/-!
# Canonical JSON

One text for all values that differ in the order of fields only: at every level the fields are
sorted by key before the value is written without blanks.
-/

namespace EventPipeline

namespace Key

/-- The order of keys: names by code point, the key of surplus cells last. -/
def notAfter : Key → Key → Bool
  | .name s, .name t => s.notAfter t
  | .name _, .surplus => true
  | .surplus, .name _ => false
  | .surplus, .surplus => true

end Key

namespace Value

mutual

/-- The value with the fields of every object sorted by key. -/
def sorted : Value → Value
  | .array items => .array (sortedItems items)
  | .object fields => .object ((sortedFields fields).mergeSort fun f g => f.1.notAfter g.1)
  | v => v

/-- The items, each sorted. -/
def sortedItems : List Value → List Value
  | [] => []
  | v :: vs => sorted v :: sortedItems vs

/-- The fields in their order, each value sorted. -/
def sortedFields : List (Key × Value) → List (Key × Value)
  | [] => []
  | (k, v) :: fs => (k, sorted v) :: sortedFields fs

end

end Value

namespace Json

/-- The canonical text of a value. -/
def canonical (v : Value) : Text :=
  write .compact v.sorted

end Json

end EventPipeline
