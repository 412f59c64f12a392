import EventPipeline.Failure.Reading
import EventPipeline.Pipeline.Definition
import EventPipeline.Text.Word

/-!
# Directives

A line of a pipeline document is one directive:

    source <type>("<path or url>")      source <type>({ <JSON object> })
    sink <type>("<path or url>")        sink <type>({ <JSON object> })
    filter(<expression>)                transform(<expression>)
    bufferSize <integer>

A line is read without regard to the others. What is wrong with it is one of the faults below;
words for them are made in one place.
-/

namespace EventPipeline

namespace Document

/-- The stages that a line can name. -/
inductive StageWord where
  | filter | transform
  deriving DecidableEq

/-- What a line asks for. -/
inductive Command where
  /-- A connector at one end. -/
  | connect (role : Role) (descriptor : Descriptor)
  /-- A stage. -/
  | stage (word : StageWord) (e : Expression)
  /-- The capacity of the buffer. -/
  | bufferSize (n : Nat)

/-- A directive: a line that was understood, with its number. -/
structure Directive where
  /-- The number of the line, from one on. -/
  number : Nat
  /-- The line without whitespace around it. -/
  line : Text
  /-- What it asks for. -/
  command : Command

/-- What is wrong with a line. -/
inductive Fault where
  /-- A connector is not written as its type with one argument. -/
  | connectorForm (role : Role) (arguments : Text)
  /-- The argument of a connector is no JSON. -/
  | configText (type : Text) (e : Json.Error)
  /-- The argument of a connector is JSON, but no object. -/
  | configRoot (type : Text)
  /-- The body of a stage is no expression. -/
  | expression (word : StageWord) (body : Text) (e : Expression.SyntaxError)
  /-- The body of a stage is not in parentheses. -/
  | stageForm (word : StageWord)
  /-- The line is no word with arguments. -/
  | unreadable
  /-- The capacity is no integer. -/
  | bufferSize (arguments : Text)
  /-- The first word is no command. -/
  | unknownCommand (word : Text)
  /-- The same end was named on an earlier line. -/
  | duplicate (role : Role) (first : Nat)

/-! ### Words -/

/-- The word of a stage. -/
def StageWord.text : StageWord → Text
  | filter => "filter"
  | transform => "transform"

/-- The words that lines can start with. -/
def commandWords : List Text :=
  [Role.source.name, Role.sink.name, StageWord.filter.text, StageWord.transform.text, "bufferSize"]

/-- The word of a command. -/
def Command.word : Command → Text
  | connect role _ => role.name
  | stage word _ => word.text
  | bufferSize _ => "bufferSize"

/-- The end that a command names. -/
def Command.role? : Command → Option Role
  | connect role _ => some role
  | _ => none

/-- The types whose argument is an address. -/
def addressTypes : List Text := ["http", "https"]

/-! ### Failures -/

/-- The failure of a line. -/
def lineFailure (number : Nat) (line : Text) (message : Text) (details : Fields) (cause : Option Cause) : Failure :=
  .structured (.document (some number) (some line)) message
    ([(.name "line_number", .nat number), (.name "line", .text line)] ++ details) none cause

/-- The failure of a fault in a line. A fault in an expression that is no fault of syntax stays as
it is. -/
def Fault.toFailure (number : Nat) (line : Text) : Fault → Failure
  | connectorForm role arguments =>
    lineFailure number line ("Invalid " ++ role.name ++ " specification: " ++ arguments) [] none
  | configText type e =>
    lineFailure number line ("Invalid " ++ type ++ " configuration: " ++ e.complaint.message) []
      (some e.toFailure.asCause)
  | configRoot type =>
    lineFailure number line ("Invalid " ++ type ++ " configuration: expected an object") [] none
  | expression word body e =>
    match e.toFailure body with
    | .structured (.expressionSyntax position) message details hint cause =>
      lineFailure number line ("Invalid " ++ word.text ++ " expression: " ++ message)
        [(.name "position", .ofInt? position)]
        (some (Failure.structured (.expressionSyntax position) message details hint cause).asCause)
    | f => f
  | stageForm word =>
    lineFailure number line ("Invalid " ++ word.text ++ " syntax, expected " ++ word.text ++ "(<expr>)") [] none
  | unreadable => lineFailure number line ("Invalid DSL line: " ++ line) [] none
  | bufferSize arguments => lineFailure number line ("Invalid buffer size: " ++ arguments) [] none
  | unknownCommand word =>
    lineFailure number line ("Unknown command: " ++ word)
      [(.name "expected", .array (commandWords.map Value.text))] none
  | duplicate role first =>
    lineFailure number line
      ("Duplicate " ++ role.name ++ " (first defined on line " ++ Text.ofNat first ++ ")") [] none

/-! ### Shapes of lines -/

/-- What stands between an opening parenthesis, before which there may be whitespace, and a closing
one at the end. -/
def inParentheses? (t : Text) : Option Text :=
  match t.stripStart with
  | .char '(' :: rest => if rest.getLast? = some (.char ')') then some rest.dropLast else none
  | _ => none

/-- The body of a line that is a stage. -/
def stageBody? (line : Text) : Option (StageWord × Text) :=
  [StageWord.filter, .transform].findSome? fun word => do
    let rest ← line.after? word.text
    let body ← inParentheses? rest
    return (word, body)

/-- The longest word at the start of a text, and what follows it. -/
def splitWord? (t : Text) : Option (Text × Text) :=
  let word := t.takeWhile Symbol.isWord
  if word = [] then none else some (word, t.dropWhile Symbol.isWord)

/-- A word and its arguments, with whitespace between them. -/
def wordAndArguments? (line : Text) : Option (Text × Text) := do
  let (word, rest) ← splitWord? line
  match rest with
  | [] => none
  | c :: _ => if c.isBlank ∧ rest.strip ≠ [] then some (word, rest.strip) else none

/-- A text between two quotes, with at least one symbol and none of the quotes in it. -/
def unquote? (t : Text) : Option Text :=
  match t with
  | .char q :: rest =>
    let inner := rest.dropLast
    if (q = '"' ∨ q = '\'') ∧ rest.getLast? = some (.char q) ∧ inner ≠ [] ∧ ¬ inner.contains (.char q)
    then some inner else none
  | _ => none

/-! ### Reading lines -/

/-- The connector of the arguments of a line. -/
def readConnector (role : Role) (arguments : Text) : Except Fault Descriptor :=
  match splitWord? arguments with
  | none => .error (.connectorForm role arguments)
  | some (type, rest) =>
    match inParentheses? rest with
    | none => .error (.connectorForm role arguments)
    | some between =>
      let inner := between.strip
      match inner with
      | .char '\x7b' :: _ =>
        match Json.read inner with
        | .error e => .error (.configText type e)
        | .ok (.object fields) => .ok ⟨type, fields⟩
        | .ok _ => .error (.configRoot type)
      | _ =>
        match unquote? inner with
        | none => .error (.connectorForm role arguments)
        | some argument =>
          let key : Text := if type ∈ addressTypes then "url" else "path"
          .ok ⟨type, [(.name key, .text argument)]⟩

/-- The command of a line without whitespace around it. -/
def readLine (line : Text) : Except Fault Command :=
  match stageBody? line with
  | some (word, body) =>
    match Expression.compile body with
    | .ok e => .ok (.stage word e)
    | .error e => .error (.expression word body e)
  | none =>
    match wordAndArguments? line with
    | none => .error .unreadable
    | some (word, arguments) =>
      if word = StageWord.filter.text then .error (.stageForm .filter)
      else if word = StageWord.transform.text then .error (.stageForm .transform)
      else if word = Role.source.name then (readConnector .source arguments).map (.connect .source)
      else if word = Role.sink.name then (readConnector .sink arguments).map (.connect .sink)
      else if word = "bufferSize" then
        if arguments.all Symbol.isDecimal then .ok (.bufferSize (digitsValue arguments))
        else .error (.bufferSize arguments)
      else .error (.unknownCommand word)

end Document

end EventPipeline
