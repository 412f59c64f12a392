import EventPipeline.Number.Reading
import EventPipeline.Value.Basic

/-!
# Plain YAML

The part of YAML that configuration files use: nested block mappings, block sequences of scalars,
and plain scalars, which are integers, truth values, nulls or texts. Blank lines and comment lines
are skipped; a file without any other line holds null.
-/

namespace EventPipeline

namespace Yaml

/-- A line that says something: its indentation and its content. -/
structure Line where
  /-- The number of blanks in front. -/
  indent : Nat
  /-- The text without blanks around it. -/
  content : Text

/-- The lines of a text that say something. -/
def linesOf (t : Text) : List Line :=
  ((t.splitOn (· == .char '\n')).map fun raw =>
    (⟨(raw.takeWhile (· == .char ' ')).length, raw.strip⟩ : Line)).filter fun line =>
      match line.content with
      | [] | .char '#' :: _ => false
      | _ => true

/-- The value of a plain scalar, or nothing if a flow collection starts here. -/
def scalar? (t : Text) : Option Value :=
  match t with
  | .char '[' :: _ | .char '\x7b' :: _ => none
  | _ =>
    if t = [] ∨ t = "~" ∨ t = "null" then some .null
    else if t = "true" then some (.bool true)
    else if t = "false" then some (.bool false)
    else
      let (negative, digits) := Binary64.readSign t
      if !digits.isEmpty && digits.all Symbol.isAsciiDigit then
        some (.int (if negative then -(digitsValue digits : Int) else digitsValue digits))
      else some (.text t)

/-- The key of a line `key: value` and the text of its value. -/
def splitKey? (t : Text) : Option (Text × Text) :=
  match t with
  | [] => none
  | [.char ':'] => some ([], [])
  | .char ':' :: .char ' ' :: rest => some ([], Text.strip rest)
  | c :: rest => (splitKey? rest).map fun (key, value) => (c :: key, value)

/-- The item of a line of a sequence. -/
def item? : Text → Option Text
  | [.char '-'] => some []
  | .char '-' :: .char ' ' :: rest => some (Text.strip rest)
  | _ => none

/-- The value of lines; nothing if they are malformed. -/
def block? : Nat → List Line → Option Value
  | 0, _ => none
  | _, [] => some .null
  | fuel + 1, line :: lines =>
    match item? line.content with
    | some first => do
      let v ← scalar? first
      let vs ← lines.mapM fun l => if l.indent = line.indent then (item? l.content).bind scalar? else none
      return .array (v :: vs)
    | none =>
      match splitKey? line.content with
      | some _ => (mapping? fuel line.indent [] (line :: lines)).map .object
      | none => if lines.isEmpty then scalar? line.content else none
where
  /-- The entries of a mapping at an indentation, after those already read. -/
  mapping? : Nat → Nat → Fields → List Line → Option Fields
    | 0, _, _, _ => none
    | _, _, fields, [] => some fields
    | fuel + 1, indent, fields, line :: lines =>
      if line.indent ≠ indent then none
      else do
        let (key, value) ← splitKey? line.content
        let inner := lines.takeWhile fun l => indent < l.indent
        let outer := lines.dropWhile fun l => indent < l.indent
        let v ← if value.isEmpty then block? fuel inner else if inner.isEmpty then scalar? value else none
        mapping? fuel indent (fields.set (.name key.strip) v) outer

/-- The value of a text; nothing if it is malformed. -/
def read? (t : Text) : Option Value :=
  let lines := linesOf t
  block? (2 * lines.length + 1) lines

end Yaml

end EventPipeline
