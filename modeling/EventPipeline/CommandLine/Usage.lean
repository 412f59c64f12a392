import EventPipeline.CommandLine.Arguments

/-!
# Usage

How the program tells about its commands, and how it complains about words that it cannot use.
-/

namespace EventPipeline

namespace CommandLine

/-- The name of the program. -/
def programName : Text := "streamsynth"

/-- A line of text. -/
def line (t : Text) : Text := t ++ "\n"

/-- Lines of text. -/
def lines (ts : List Text) : Text := ts.flatMap line

/-- The name of the program with the command that it is given. -/
def invoked : Option Verb → Text
  | none => programName
  | some verb => programName ++ " " ++ verb.name

/-- How the program, or one of its commands, is called. -/
def usageLine (verb : Option Verb) : Text :=
  let arguments : Text := match verb with
    | none => " [-h] \x7brun,create\x7d ..."
    | some .run => " [-h] [--config CONFIG] [--local-config LOCAL_CONFIG] file"
    | some .create => " [-h] file"
  "usage: " ++ invoked verb ++ arguments

/-- The help on the program or one of its commands. -/
def help (verb : Option Verb) : Text :=
  let about : List Text := match verb with
    | none =>
      ["StreamSynth - continuous event processing pipelines", "",
       "positional arguments:",
       "  \x7brun,create\x7d  Commands",
       "    run         Run a pipeline DSL file until interrupted",
       "    create      Create a pipeline DSL template", "",
       "options:",
       "  -h, --help    show this help message and exit"]
    | some .run =>
      ["positional arguments:",
       "  file                  Path to pipeline DSL file", "",
       "options:",
       "  -h, --help            show this help message and exit",
       "  --config CONFIG       Engine config (YAML or JSON)",
       "  --local-config LOCAL_CONFIG",
       "                        Local overrides merged over --config"]
    | some .create =>
      ["positional arguments:",
       "  file        Path for the new DSL file", "",
       "options:",
       "  -h, --help  show this help message and exit"]
  lines ([usageLine verb, ""] ++ about)

namespace Flag

/-- A flag in all its spellings. -/
def text : Flag → Text
  | help => "-h/--help"
  | config => "--config"
  | localConfig => "--local-config"

end Flag

namespace Misuse

/-- What is wrong with the words of a command line. -/
def message : Misuse → Text
  | ambiguous word => "ambiguous option: " ++ word
  | surplusValue value => "argument -h/--help: ignored explicit argument " ++ value.quoted
  | missingValue f => "argument " ++ f.text ++ ": expected one argument"
  | missingFile => "the following arguments are required: file"
  | unknownCommand word =>
    "argument command: invalid choice: " ++ word.quoted ++ " (choose from "
      ++ Text.join ", " (Verb.all.map fun v => v.name.quoted) ++ ")"
  | leftOver words => "unrecognized arguments: " ++ Text.join " " words

end Misuse

/-- The complaint about the words of a command line. -/
def complaint (verb : Option Verb) (m : Misuse) : Text :=
  lines [usageLine verb, invoked verb ++ ": error: " ++ m.message]

end CommandLine

end EventPipeline
