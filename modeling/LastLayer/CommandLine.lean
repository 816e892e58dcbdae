import LastLayer.CaseData.Reader
import LastLayer.Listing
import LastLayer.Validation

/-!
# The command line

A command names what to do and on what: `validate [DATA]`, `preview [DATA]`, `pattern ALG [--json]`,
`normalize ALG` or `invert ALG`. The option `-v` or `--verbose` may stand anywhere and any number of
times. Two hyphens end the options of a command.

What a command prints, and its exit code, is its `Outcome`. Running a command takes a function that
reads files; nothing else of the outside world is needed.

An outcome is without log records. Left out are the warnings about entries that are skipped and
about moves that cannot be read, in whose place the plain pattern is shown, and the records on
loading, reading, turning and checking that `--verbose` asks for. So this option changes nothing of
an outcome.
-/

namespace LastLayer

/-- What the program is asked to do. -/
inductive Command where
  /-- Check every case of a file. -/
  | validate (path : String)
  /-- List the cases of a file with their patterns. -/
  | preview (path : String)
  /-- Show the pattern of an algorithm, as a drawing or as JSON. -/
  | pattern (algorithm : String) (json : Bool)
  /-- Show an algorithm in canonical notation. -/
  | normalize (algorithm : String)
  /-- Show the inverse of an algorithm. -/
  | invert (algorithm : String)
deriving DecidableEq

namespace Command

/-- The file read if none is named. -/
def defaultPath : String := "assets/data/oll.json"

/-! ## Arguments -/

/-- Whether an argument is the option that asks for more log records: `--verbose`, or a hyphen and
one or more letters `v`. -/
def isVerbose (argument : String) : Bool :=
  argument = "--verbose" ||
    match argument.toList with
    | '-' :: 'v' :: letters => letters.all (· = 'v')
    | _ => false

/-- Whether an argument has the form of an option. A single hyphen has not. -/
def isOption (argument : String) : Bool :=
  match argument.toList with
  | '-' :: _ :: _ => true
  | _ => false

/-- The arguments of a command without its options. -/
structure Operands where
  /-- The arguments that are no options, in order. -/
  values : List String
  /-- Whether JSON is asked for. -/
  json : Bool

/-- Sort out the arguments of a command; `--json` may stand at most once, and only if the command
takes it. -/
def operands? (takesJson : Bool) : List String → Option Operands
  | [] => some ⟨[], false⟩
  | argument :: arguments =>
    if argument = "--" then
      some ⟨arguments, false⟩
    else if isVerbose argument then
      operands? takesJson arguments
    else if argument = "--json" ∧ takesJson then
      match operands? takesJson arguments with
      | some ⟨values, false⟩ => some ⟨values, true⟩
      | _ => none
    else if isOption argument then
      none
    else
      (operands? takesJson arguments).map fun rest => { rest with values := argument :: rest.values }

/-- The path that the operands of a command name; it may be left out but not be empty. -/
def path? (operands : Operands) : Option String :=
  match operands.values with
  | [] => some defaultPath
  | [path] => if path.isEmpty then none else some path
  | _ => none

/-- The algorithm that the operands of a command name. -/
def algorithm? (operands : Operands) : Option String :=
  match operands.values with
  | [algorithm] => some algorithm
  | _ => none

/-- The command with a given name and given arguments. -/
def ofName? (name : String) (arguments : List String) : Option Command :=
  if name = "validate" then
    (operands? false arguments).bind fun operands => (path? operands).map .validate
  else if name = "preview" then
    (operands? false arguments).bind fun operands => (path? operands).map .preview
  else if name = "pattern" then
    (operands? true arguments).bind fun operands =>
      (algorithm? operands).map fun algorithm => .pattern algorithm operands.json
  else if name = "normalize" then
    (operands? false arguments).bind fun operands => (algorithm? operands).map .normalize
  else if name = "invert" then
    (operands? false arguments).bind fun operands => (algorithm? operands).map .invert
  else
    none

/-- The command that a list of arguments asks for. -/
def ofArguments? : List String → Option Command
  | [] => none
  | argument :: arguments =>
    if isVerbose argument then ofArguments? arguments else ofName? argument arguments

end Command

/-! ## Running commands -/

/-- What a command prints, and its exit code. -/
structure Outcome where
  /-- The exit code: zero for success, one for failure, two for a misuse of the command line. -/
  code : Nat
  /-- What is printed as the result. -/
  output : String
  /-- What is printed as messages: warnings and errors of the command, without log records. -/
  messages : String

namespace Outcome

/-- A success with a line of output. -/
def line (text : String) : Outcome := ⟨0, text ++ "\n", ""⟩

/-- A failure with an error message. -/
def failure (message : String) : Outcome := ⟨1, "", "Error: " ++ message ++ "\n"⟩

/-- The commands, as they are shown to someone who asks for none of them. -/
def usage : String :=
  "Usage: validate [DATA] | preview [DATA] | pattern ALG [--json] | normalize ALG | invert ALG\n"

/-- The arguments ask for no command. -/
def misuse : Outcome := ⟨2, "", usage⟩

/-- The outcome of a computation whose result is a line of output. -/
def ofNotation (result : Except Notation.Error String) : Outcome :=
  match result with
  | .ok text => line text
  | .error error => failure error.message

/-- Some lines under a heading, unless there are none. -/
def itemize (heading : String) (items : List String) : String :=
  if items.isEmpty then ""
  else heading ++ "\n" ++ String.join (items.map fun item => "- " ++ item ++ "\n")

end Outcome

/-- Why a collection could not be loaded from a file. -/
inductive LoadError where
  /-- The file cannot be read as text. -/
  | unreadable (path : String)
  /-- The text of the file is no collection. -/
  | unparsable (path : String)

/-- The wording of an error. -/
def LoadError.message : LoadError → String
  | .unreadable path => "Unable to read OLL data from " ++ path
  | .unparsable path => "Unable to parse OLL data in " ++ path

/-- The collection in a file, given the text of the file if there is one. -/
def CaseData.load (path : String) (contents : Option String) : Except LoadError CaseData :=
  match contents with
  | none => .error (.unreadable path)
  | some text =>
    match CaseData.parse text with
    | .error _ => .error (.unparsable path)
    | .ok data => .ok data

/-- The outcome of validating a collection. -/
def CaseData.validationOutcome (data : CaseData) (path : String) : Outcome :=
  let report := data.validate path
  let warnings := Outcome.itemize "Warnings:" (report.warnings.map Warning.message)
  if report.isOk then
    { code := 0
      output := "Validated " ++ toString report.validated ++ " OLL cases from " ++ path ++ ".\n"
      messages := warnings }
  else
    let problems := Outcome.itemize "Validation errors:" (report.problems.map Problem.message)
    { code := 1
      output := ""
      messages := warnings ++ problems ++ "Error: " ++ toString report.problems.length ++
        " validation error(s)\n" }

namespace Command

/-- Run a command on the collection in a file. -/
def withData {m : Type → Type} [Monad m] (readFile : String → m (Option String)) (path : String)
    (run : CaseData → Outcome) : m Outcome := do
  match CaseData.load path (← readFile path) with
  | .error error => return .failure error.message
  | .ok data => return run data

/-- Run a command. A file is read as text, or not at all. -/
def run {m : Type → Type} [Monad m] (readFile : String → m (Option String)) :
    Command → m Outcome
  | .validate path => withData readFile path fun data => data.validationOutcome path
  | .preview path => withData readFile path fun data => ⟨0, data.listing, ""⟩
  | .pattern algorithm json =>
    return .ofNotation ((Pattern.preview algorithm).map fun pattern =>
      if json then pattern.json else pattern.diagram)
  | .normalize algorithm => return .ofNotation (Algorithm.normalize algorithm)
  | .invert algorithm => return .ofNotation (Algorithm.invert algorithm)

/-- Run the program with the given arguments. -/
def runArguments {m : Type → Type} [Monad m] (readFile : String → m (Option String))
    (arguments : List String) : m Outcome :=
  match ofArguments? arguments with
  | none => return .misuse
  | some command => command.run readFile

end Command

end LastLayer
