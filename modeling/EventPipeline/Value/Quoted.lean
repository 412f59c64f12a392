import EventPipeline.Value.Basic
import EventPipeline.Text.Quoted

/-!
# Values in messages

How a value is shown inside a message or on a raw console: texts are quoted, the null value and
the truth values are written as words with a capital letter.
-/

namespace EventPipeline

namespace Key

/-- A key as messages show it. -/
def quoted : Key → Text
  | .name t => t.quoted
  | .surplus => "None"

/-- A key without quotes around it. -/
def shown : Key → Text
  | .name t => t
  | .surplus => "None"

end Key

namespace Value

mutual

/-- A value as messages show it. -/
def quoted : Value → Text
  | .null => "None"
  | .bool true => "True"
  | .bool false => "False"
  | .number n => n.toText
  | .text t => t.quoted
  | .array items => "[" ++ quotedItems items ++ "]"
  | .object fields => "\x7b" ++ quotedFields fields ++ "\x7d"

/-- The items of an array as messages show them. -/
def quotedItems : List Value → Text
  | [] => []
  | [v] => quoted v
  | v :: vs => quoted v ++ ", " ++ quotedItems vs

/-- The fields of an object as messages show them. -/
def quotedFields : List (Key × Value) → Text
  | [] => []
  | [(k, v)] => k.quoted ++ ": " ++ quoted v
  | (k, v) :: fs => k.quoted ++ ": " ++ quoted v ++ ", " ++ quotedFields fs

end

/-- A value shown without quotes around it if it is a text. -/
def shown : Value → Text
  | .text t => t
  | v => v.quoted

example : quoted (.object [(.name "a", .array [.null, .bool true]), (.surplus, .text "x")])
    = "\x7b'a': [None, True], None: 'x'\x7d" := by decide

end Value

end EventPipeline
