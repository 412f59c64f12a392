import EventPipeline.Value.Quoted

/-!
# Failures

A failure travels from where it arises to a caller, to the `error` signal or into the log. A
structured failure says which part of the program it concerns and carries data for diagnosis; a
configuration failure names the file or the key at fault; a plain failure comes from outside (the
file system, a client, a subscriber) and has a kind and a message only.
-/

namespace EventPipeline

/-- What a structured failure concerns, with what that part of the program knows about it. -/
inductive Concern where
  /-- Nothing in particular. -/
  | general
  /-- The definition of a pipeline or its settings. -/
  | configuration
  /-- A connector name that is registered already. -/
  | duplicateConnector (type role : Option Text)
  /-- A connector name that is not registered. -/
  | unknownConnector (type role : Option Text)
  /-- The construction or the start of a connector. -/
  | connectorInit (type role : Option Text)
  /-- A line of a pipeline document. -/
  | document (lineNumber : Option Int) (line : Option Text)
  /-- A source that could not produce an event. -/
  | source (type : Option Text)
  /-- A stage that failed on an event. -/
  | processor (index : Option Int) (kind : Option Text)
  /-- A write to the sink or its closing. -/
  | sink
  /-- A file of spilled events. -/
  | spillover (path : Option Text)
  /-- The text of an expression, at a position. -/
  | expressionSyntax (position : Option Int)
  /-- The evaluation of an expression. -/
  | expressionEvaluation
  deriving DecidableEq, Inhabited

/-- What a configuration failure is about. -/
inductive ConfigConcern where
  /-- Nothing in particular. -/
  | general
  /-- A file that has to exist is missing. -/
  | notFound
  /-- No reader is known for the suffix of a file. -/
  | unsupportedFormat
  /-- The text of a file is malformed. -/
  | malformed
  /-- The root of a file is no mapping. -/
  | rootType
  /-- Two values under one key do not fit together. -/
  | typeConflict
  deriving DecidableEq

/-- What the file system refuses. -/
inductive FileError where
  | notFound | alreadyExists | notDirectory | isDirectory | notEmpty
  deriving DecidableEq

/-- The kind of a failure from outside. -/
inductive Fault where
  /-- A value of a fitting type that cannot be used. -/
  | value
  /-- A value of a type that does not fit. -/
  | type
  /-- A value that lacks what it is asked for. -/
  | lacking
  /-- A position outside of a sequence. -/
  | index
  /-- A number beyond what can be held. -/
  | overflow
  /-- A division by zero. -/
  | divisionByZero
  /-- A promise that was not kept. -/
  | assertion
  /-- Calls nested too deeply. -/
  | nesting
  /-- Work that was called off. -/
  | calledOff
  /-- A part that is in no condition to do its work. -/
  | runtime
  /-- A peer that cannot be reached. -/
  | connection
  /-- A part that is not there. -/
  | absence
  /-- A text that is no JSON. -/
  | json
  /-- A text that cannot be encoded. -/
  | encoding
  /-- A refusal of the file system. -/
  | file (e : FileError)
  /-- Any other kind, by its name. -/
  | named (name : Text)
  deriving DecidableEq, Inhabited

/-- The failure behind a failure, as far as a report shows it. -/
structure Cause where
  /-- Its name. -/
  name : Text
  /-- Its message. -/
  message : Text
  deriving DecidableEq

/-- A failure. -/
inductive Failure where
  /-- A failure of a part of the program, with data for diagnosis. -/
  | structured (concern : Concern) (message : Text) (details : Fields) (hint : Option Text)
      (cause : Option Cause)
  /-- A failure to make out a configuration. -/
  | config (concern : ConfigConcern) (message : Text) (path key : Option Text)
  /-- A failure that came from outside. -/
  | plain (fault : Fault) (message : Text)
  deriving DecidableEq, Inhabited

namespace Concern

/-- The name of a structured failure. -/
def name : Concern → Text
  | general => "StreamSynthException"
  | configuration => "ConfigurationError"
  | duplicateConnector _ _ => "DuplicateConnectorError"
  | unknownConnector _ _ => "UnknownConnectorError"
  | connectorInit _ _ => "ConnectorInitError"
  | document _ _ => "DslSyntaxError"
  | source _ => "SourceError"
  | processor _ _ => "ProcessorError"
  | sink => "SinkError"
  | spillover _ => "SpilloverError"
  | expressionSyntax _ => "ExpressionSyntaxError"
  | expressionEvaluation => "ExpressionEvaluationError"

/-- The stable code of a structured failure in reports. -/
def code : Concern → Text
  | general => "ENGINE_EXECUTION_ERROR"
  | configuration => "CONFIGURATION_ERROR"
  | duplicateConnector _ _ => "DUPLICATE_CONNECTOR"
  | unknownConnector _ _ => "UNKNOWN_CONNECTOR"
  | connectorInit _ _ => "CONNECTOR_INIT_ERROR"
  | document _ _ => "DSL_SYNTAX_ERROR"
  | source _ => "SOURCE_ERROR"
  | processor _ _ => "PROCESSOR_ERROR"
  | sink => "SINK_ERROR"
  | spillover _ => "SPILLOVER_ERROR"
  | expressionSyntax _ => "EXPRESSION_SYNTAX_ERROR"
  | expressionEvaluation => "EXPRESSION_EVALUATION_ERROR"

/-- What the part of the program knows, by name. -/
def facts : Concern → Fields
  | duplicateConnector t r | unknownConnector t r | connectorInit t r =>
    [("connector_type", .ofText? t), ("role", .ofText? r)]
  | document n l => [("line_number", .ofInt? n), ("line", .ofText? l)]
  | source t => [("connector_type", .ofText? t)]
  | processor i k => [("stage_index", .ofInt? i), ("stage_kind", .ofText? k)]
  | spillover p => [("path", .ofText? p)]
  | expressionSyntax p => [("position", .ofInt? p)]
  | general | configuration | sink | expressionEvaluation => []

end Concern

namespace ConfigConcern

/-- The name of a configuration failure. -/
def name : ConfigConcern → Text
  | general => "ConfigError"
  | notFound => "DefaultsNotFoundError"
  | unsupportedFormat => "UnsupportedConfigFormatError"
  | malformed => "ConfigParseError"
  | rootType => "InvalidConfigRootTypeError"
  | typeConflict => "ConfigTypeConflictError"

end ConfigConcern

namespace FileError

/-- The name of an error. -/
def name : FileError → Text
  | notFound => "FileNotFoundError"
  | alreadyExists => "FileExistsError"
  | notDirectory => "NotADirectoryError"
  | isDirectory => "IsADirectoryError"
  | notEmpty => "OSError"

end FileError

namespace Fault

/-- The name of a kind. -/
def name : Fault → Text
  | value => "ValueError"
  | type => "TypeError"
  | lacking => "AttributeError"
  | index => "IndexError"
  | overflow => "OverflowError"
  | divisionByZero => "ZeroDivisionError"
  | assertion => "AssertionError"
  | nesting => "RecursionError"
  | calledOff => "CancelledError"
  | runtime => "RuntimeError"
  | connection => "ConnectionError"
  | absence => "ImportError"
  | json => "JSONDecodeError"
  | encoding => "UnicodeEncodeError"
  | file e => e.name
  | named name => name

end Fault

namespace Failure

/-- The name of a failure. -/
def name : Failure → Text
  | structured concern .. => concern.name
  | config concern .. => concern.name
  | plain fault _ => fault.name

/-- The failure in words. A failure in a document adds the line at fault. -/
def message : Failure → Text
  | structured (.document (some n) line) message .. =>
    message ++ " (line " ++ Text.ofInt n ++ ": " ++ (line.map Text.quoted).getD "None" ++ ")"
  | structured _ message .. => message
  | config _ message .. => message
  | plain _ message => message

/-- The failure as the cause of another one. -/
def asCause (f : Failure) : Cause := ⟨f.name, f.message⟩

/-- A failure of a pipeline's definition or settings. -/
def configuration (message : Text) (details : Fields) (hint : Option Text) : Failure :=
  structured .configuration message details hint none

end Failure

/-- The failure of an operation on numbers. -/
def NumberError.toFailure : NumberError → Failure
  | .integerTooLarge => .plain .overflow "int too large to convert to float"
  | .quotientTooLarge => .plain .overflow "integer division result too large for a float"
  | .infinityToInteger => .plain .overflow "cannot convert float infinity to integer"
  | .nanToInteger => .plain .value "cannot convert float NaN to integer"
  | .remainderOfInfinity => .plain .value "math domain error"
  | .divisionByZero => .plain .divisionByZero "float division by zero"

end EventPipeline
