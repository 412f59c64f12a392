import EventPipeline.Failure.Basic

/-!
# Reports

Every failure that the engine meets is reported in one form: a stable code, a short message, data
for diagnosis and a hint. The cause of a structured failure is named in the data, unless the data
names one already.
-/

namespace EventPipeline

/-- A failure in the form in which logs keep it. -/
structure Report where
  /-- A stable code. -/
  code : Text
  /-- A short message. -/
  message : Text
  /-- Data for diagnosis. -/
  details : Fields
  /-- What to do about it. -/
  hint : Option Text
  deriving DecidableEq

/-- The code of failures from outside. -/
def foreignCode : Text := "ENGINE_EXECUTION_ERROR"

namespace Failure

/-- The stable code of a failure. -/
def code : Failure → Text
  | structured concern .. => concern.code
  | _ => foreignCode

/-- The message, or other words if it is empty. -/
def messageOr (words : Text) (f : Failure) : Text :=
  if f.message.isEmpty then words else f.message

/-- The report of a failure. -/
def report (f : Failure) : Report :=
  match f with
  | structured concern _ details hint cause =>
    let details := match cause with
      | none => details
      | some c => (details.setDefault "cause_class" c.name).setDefault "cause_message" c.message
    ⟨concern.code, f.messageOr "Erro de execução", details, hint⟩
  | _ =>
    ⟨foreignCode, f.messageOr "Erro inesperado durante execução", [("exception_class", f.name)],
      some "Verifique o log da run e a definição da pipeline"⟩

end Failure

/-- The report as a value, for the log. -/
def Report.toValue (r : Report) : Value :=
  .object [("type", r.code), ("message", r.message), ("details", .object r.details), ("hint", .ofText? r.hint)]

end EventPipeline
