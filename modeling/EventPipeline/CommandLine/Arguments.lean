import EventPipeline.Text.Digit
import EventPipeline.Text.Quoted

/-!
# Arguments

What the words of a command line ask for. A word that starts with a dash names a flag, and it may be
cut short as long as only one flag starts that way; the value of a flag follows it, or is attached to
it by an equals sign. Negative numbers and words with spaces in them name no flag. After a double
dash no word names a flag. All words are told apart before any of them is acted on.
-/

namespace EventPipeline

namespace CommandLine

/-- A flag. -/
inductive Flag where
  /-- Shows how the program is used. -/
  | help
  /-- Names a configuration. -/
  | config
  /-- Names a configuration that is laid over the first one. -/
  | localConfig
  deriving DecidableEq

/-- A command. -/
inductive Verb where
  /-- Runs a pipeline. -/
  | run
  /-- Writes a pipeline document to start from. -/
  | create
  deriving DecidableEq

/-- A command with what it is given. -/
inductive Command where
  /-- Runs the pipeline of a document, with a configuration and one laid over it. -/
  | run (file : Text) (config localConfig : Option Text)
  /-- Writes a document. -/
  | create (file : Text)
  deriving DecidableEq

/-- Why a command line asks for nothing that can be done. -/
inductive Misuse where
  /-- A word could stand for several flags. -/
  | ambiguous (word : Text)
  /-- A flag is given a value that it does not take. -/
  | surplusValue (value : Text)
  /-- A flag lacks its value. -/
  | missingValue (f : Flag)
  /-- The file is missing. -/
  | missingFile
  /-- A command is not known. -/
  | unknownCommand (word : Text)
  /-- Words are left over. -/
  | leftOver (words : List Text)
  deriving DecidableEq

/-- Why reading the words ends early: help is asked for, or they are misused. The command in whose
words that happens is named, if it happens there. -/
inductive Early where
  /-- Help. -/
  | help (verb : Option Verb)
  /-- Misuse. -/
  | misuse (verb : Option Verb) (m : Misuse)
  deriving DecidableEq

/-- What a word is. -/
inductive Mark where
  /-- A word for itself. -/
  | word
  /-- The double dash. -/
  | divider
  /-- A flag, as it is spelled in full, with what is attached to it: the value after an equals sign,
  or all that follows a flag of one letter in its word. -/
  | flag (f : Flag) (spelling : Text) (attached : Option Text)
  /-- A flag that nobody knows. -/
  | unknown
  deriving DecidableEq

/-- What the words after a command have given so far. -/
structure Given where
  /-- The file. -/
  file : Option Text
  /-- The configuration. -/
  config : Option Text
  /-- The configuration laid over it. -/
  localConfig : Option Text
  /-- Words that are left over. -/
  leftOver : List Text

namespace Verb

/-- The name of a command. -/
def name : Verb → Text
  | run => "run"
  | create => "create"

/-- All commands. -/
def all : List Verb := [run, create]

/-- The command of a name. -/
def ofName? (t : Text) : Option Verb := all.find? fun v => v.name = t

end Verb

/-- The spellings of flags, by the command that they belong to. -/
def spellings : Option Verb → List (Text × Flag)
  | some .run =>
    [("-h", .help), ("--help", .help), ("--config", .config), ("--local-config", .localConfig)]
  | _ => [("-h", .help), ("--help", .help)]

/-- The words are too few or too many for a flag with a value. -/
def Flag.takesValue : Flag → Bool
  | .help => false
  | _ => true

/-! ### Telling words apart -/

/-- The sign that flags start with. -/
def dash : Symbol := .char '-'

/-- The word that ends the flags. -/
def divider : Text := "--"

/-- What stands before and after the first equals sign. -/
def attachment (t : Text) : Text × Option Text :=
  match t.dropWhile (· ≠ .char '=') with
  | [] => (t, none)
  | _ :: value => (t.takeWhile (· ≠ .char '='), some value)

/-- The text of digits, with or without a point among them, after a dash. -/
def isNegativeNumber (t : Text) : Bool :=
  match t with
  | [] => false
  | _ :: digits =>
    let isDigit (s : Symbol) : Bool := s.decimalValue?.isSome
    match digits.dropWhile isDigit with
    | [] => !digits.isEmpty
    | .char '.' :: fraction => !fraction.isEmpty && fraction.all isDigit
    | _ => false

/-- The flags that a word with a dash may stand for when it is no full spelling. -/
def candidates (known : List (Text × Flag)) (t : Text) : List Mark :=
  if divider.isPrefixOf t then
    let (lead, value) := attachment t
    known.filterMap fun (spelling, f) =>
      if lead.isPrefixOf spelling then some (.flag f spelling value) else none
  else
    known.filterMap fun (spelling, f) =>
      if spelling = t.take 2 then some (.flag f spelling (some (t.drop 2)))
      else if t.isPrefixOf spelling then some (.flag f spelling none)
      else none

/-- What a word before the double dash is. -/
def markOf (known : List (Text × Flag)) (t : Text) : Except Misuse Mark :=
  match t with
  | [] => .ok .word
  | first :: _ =>
    if first ≠ dash then .ok .word
    else match known.lookup t with
      | some f => .ok (.flag f t none)
      | none =>
        if t.length = 1 then .ok .word
        else match attachment t with
          | (lead, some value) =>
            match known.lookup lead with
            | some f => .ok (.flag f lead (some (if lead.length = 2 then t.drop 2 else value)))
            | none => guess
          | _ => guess
where
  guess : Except Misuse Mark :=
    match candidates known t with
    | [m] => .ok m
    | [] =>
      if isNegativeNumber t || t.contains (.char ' ') then .ok .word else .ok .unknown
    | _ => .error (.ambiguous t)

/-- What each of the words is. -/
def marks (known : List (Text × Flag)) : List Text → Except Misuse (List (Text × Mark))
  | [] => .ok []
  | t :: rest =>
    if t = divider then .ok ((t, .divider) :: rest.map fun w => (w, .word))
    else do
      let m ← markOf known t
      let ms ← marks known rest
      return (t, m) :: ms

/-! ### Reading -/

/-- What follows a flag of one letter in its word: further such flags, up to one that nobody knows. -/
def helpCluster : Text → Except Misuse Unit
  | .char '=' :: value => .error (.surplusValue value)
  | .char '-' :: value => .error (.surplusValue (dash :: value))
  | .char 'h' :: rest => helpCluster rest
  | _ => .ok ()

/-- The flag for help with something attached to it. -/
def helpOr (spelling value : Text) : Except Misuse Unit :=
  if spelling.length = 2 then helpCluster value else .error (.surplusValue value)

/-- The words with a value for a flag. -/
def Given.put (g : Given) (f : Flag) (value : Text) : Given :=
  match f with
  | .help => g
  | .config => { g with config := some value }
  | .localConfig => { g with localConfig := some value }

/-- One more word is left over. -/
def Given.leave (g : Given) (t : Text) : Given := { g with leftOver := g.leftOver ++ [t] }

/-- Reads the words after a command. -/
def readGiven (verb : Verb) (g : Given) (ms : List (Text × Mark)) : Except Early Given :=
  match ms with
  | [] => .ok g
  | (t, .unknown) :: rest => readGiven verb (g.leave t) rest
  | (_, .flag f spelling attached) :: rest =>
    if f.takesValue then
      match attached with
      | some value => readGiven verb (g.put f value) rest
      | none =>
        match rest with
        | (value, .word) :: rest => readGiven verb (g.put f value) rest
        | _ => .error (.misuse (some verb) (.missingValue f))
    else match attached with
      | none => .error (.help (some verb))
      | some value =>
        match helpOr spelling value with
        | .ok () => .error (.help (some verb))
        | .error m => .error (.misuse (some verb) m)
  | (t, .word) :: rest =>
    if g.file.isSome then readGiven verb (g.leave t) rest
    else match rest with
      | (_, .divider) :: rest => readGiven verb { g with file := some t } rest
      | rest => readGiven verb { g with file := some t } rest
  | (t, .divider) :: rest =>
    if g.file.isSome then readGiven verb (g.leave t) rest
    else match rest with
      | (w, .word) :: rest => readGiven verb { g with file := some w } rest
      | rest => readGiven verb (g.leave t) rest

/-- Reads the words of a command, given those that are left over before it. -/
def readVerb (verb : Verb) (leftOver words : List Text) : Except Early Command :=
  match marks (spellings (some verb)) words with
  | .error m => .error (.misuse (some verb) m)
  | .ok ms => do
    let g ← readGiven verb ⟨none, none, none, []⟩ ms
    match g.file, leftOver ++ g.leftOver with
    | none, _ => throw (.misuse (some verb) .missingFile)
    | some file, [] =>
      match verb with
      | .run => return .run file g.config g.localConfig
      | .create => return .create file
    | _, words => throw (.misuse none (.leftOver words))

/-- Reads the words of a command line, given those that are left over. -/
def readWords (leftOver : List Text) : List (Text × Mark) → Except Early Command
  | [] => .error (.misuse none (.leftOver leftOver))
  | (t, .unknown) :: rest => readWords (leftOver ++ [t]) rest
  | (_, .flag _ _ none) :: _ => .error (.help none)
  | (_, .flag _ spelling (some value)) :: _ =>
    match helpOr spelling value with
    | .ok () => .error (.help none)
    | .error m => .error (.misuse none m)
  | (t, .word) :: rest =>
    match Verb.ofName? t with
    | some verb => readVerb verb leftOver (rest.map (·.1))
    | none => .error (.misuse none (.unknownCommand t))
  | (t, .divider) :: rest =>
    if rest = [] then .error (.misuse none (.leftOver (leftOver ++ [t])))
    else .error (.misuse none (.unknownCommand t))

/-- The command of a command line. -/
def read (words : List Text) : Except Early Command :=
  match marks (spellings none) words with
  | .error m => .error (.misuse none m)
  | .ok ms => readWords [] ms

/-- The command line starts with something that is neither a flag nor a command. -/
def isAimless : List Text → Bool
  | [] => true
  | t :: _ => t.head? ≠ some dash && (Verb.ofName? t).isNone

example : (read ["run", "p", "--conf", "c"]).toOption = some (.run "p" (some "c") none) := by decide
example : (read ["--", "run"]).toOption = none := by decide

end CommandLine

end EventPipeline
