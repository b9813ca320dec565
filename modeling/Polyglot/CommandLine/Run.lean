import Polyglot.CommandLine.Arguments
import Polyglot.Settings
import Polyglot.Evaluation
import Polyglot.Json.Pretty

/-!
# The command line

There are two programs: the evaluator, which evaluates a call or lists the languages, and the worker,
which serves one request. Each takes the other's commands for a mistake.
-/

namespace Polyglot.CommandLine

/-- The program that is run. -/
inductive Mode where
  /-- The evaluator. -/
  | evaluator
  /-- The worker for scripts. -/
  | worker
  deriving DecidableEq, Repr

namespace Mode

/-- The name of a mode in messages. -/
def name : Mode → String
  | evaluator => "evaluator"
  | worker => "worker"

/-- The name of the program. -/
def program : Mode → String
  | evaluator => "evaluator"
  | worker => "zscript-worker"

/-- The other program. -/
def other : Mode → Mode
  | evaluator => worker
  | worker => evaluator

/-- Whether a program has a command. -/
def allows : Mode → Command → Bool
  | evaluator, .evaluate _ => true
  | evaluator, .languages _ => true
  | worker, .serve => true
  | _, _ => false

/-- What a program does when no command is given. -/
def defaultCommand : Mode → Option Command
  | evaluator => none
  | worker => some .serve

end Mode

/-- What a program can see. -/
structure World where
  /-- The files. -/
  files : FileTree
  /-- What the programs other than the worker do. -/
  programs : Launch.Programs
  /-- The variable that sets the time allowed. -/
  timeoutVariable : Option String
  /-- The input. -/
  input : Text.Raw
  /-- The path of the worker for scripts. -/
  worker : String
  /-- What is measured. -/
  measurement : Measurement

/-- What a program leaves behind. -/
structure Ending where
  /-- Its status. -/
  status : Nat
  /-- What it wrote as its output. -/
  output : String
  /-- What it wrote beside that. -/
  diagnostics : String

/-- A program that has done what it was asked for. -/
def succeed (output : String) : Ending := ⟨0, output, ""⟩

/-- A program that has failed, with a message. -/
def fail (message : String) : Ending := ⟨1, "", "Error: " ++ message ++ "\n"⟩

/-- The name and version of the programs. -/
def version : String := "function-evaluator 0.1.0"

/-- How the programs are used. -/
def usage (mode : Mode) : String :=
  "Usage: " ++ mode.program ++ " [evaluate | languages | serve]"

/-- A program that is asked for nothing that makes sense. -/
def misuse (mode : Mode) : Ending := ⟨2, "", "error: unusable arguments\n\n" ++ usage mode ++ "\n"⟩

/-- A program that does not have a command. -/
def notAvailable (mode : Mode) (command : Command) : Ending :=
  ⟨2, "", "Error: command '" ++ command.name ++ "' is not available in '" ++ mode.name ++
    "' mode\nUse '" ++ mode.other.program ++ "' for that command.\n"⟩

/-- The result, with a message in place of a fault. -/
def orFail {α : Type} (message : Fault → String) : Except Fault α → Except Ending α
  | .ok a => .ok a
  | .error fault => .error (fail (message fault))

/-- The settings from a file, or the default ones, and from the environment. -/
def settingsFrom (world : World) (path : Option String) : Except Ending Settings := do
  let settings ← match path with
    | some path => orFail (fun _ => "loading config " ++ path) (Settings.load world.files path)
    | none => pure Settings.default
  orFail Fault.message (settings.withVariable world.timeoutVariable)

/-- The call from a file or from the input. -/
def callFrom (world : World) (path : Option String) : Except Ending Json := do
  let text ← match path with
    | some path =>
      match world.files.read path with
      | .ok text => pure text
      | .error _ => .error (fail ("reading function call from " ++ path))
    | none =>
      match world.input.text? with
      | some text => pure text
      | none => .error (fail "reading function call from stdin")
  match Json.read? text with
  | some call => pure call
  | none => .error (fail "function call is not valid JSON")

/-- The settings with the time that an option says. -/
def withOption (settings : Settings) : Option Nat → Except Ending Settings
  | none => .ok settings
  | some 0 => .error (fail "--timeout-ms must be greater than zero")
  | some ms => .ok { settings with timeout := ms }

/-- The definitions from a file; none at all if the worker may not call back. -/
def loadDefinitions (world : World) (options : EvaluateOptions) :
    Except Ending (Option Call.Definitions) :=
  if options.noReentrancy then .ok none
  else
    match options.definitions with
    | none => .ok (some [])
    | some path =>
      (orFail (fun _ => "loading definitions " ++ path)
        (Call.loadDefinitions world.files path)).map some

/-- Evaluates a call and writes its envelope. -/
def evaluate (world : World) (options : EvaluateOptions) : Except Ending Ending := do
  let settings ← withOption (← settingsFrom world options.config) options.timeout
  let call ← callFrom world options.input
  let definitions ← loadDefinitions world options
  let evaluator : Evaluator :=
    ⟨⟨world.files, world.programs, settings.registry world.worker, world.measurement⟩,
      settings.timeout⟩
  let envelope := evaluator.evaluate call definitions
  pure (succeed ((if options.pretty then envelope.pretty else envelope.render) ++ "\n"))

/-- A text with blanks after it up to a width. -/
def padded (width : Nat) (s : String) : String :=
  s ++ String.ofList (List.replicate (width - s.length) ' ')

/-- The line of a language. -/
def languageLine (files : FileTree) (language : String) (e : Executor) : String :=
  let missing := e.absentFiles files
  let status := if missing = [] then ""
    else "  (missing " ++ String.intercalate ", " missing ++ ")"
  padded 20 language ++ " " ++ e.executable ++ " " ++ String.intercalate " " e.args ++ status ++ "\n"

/-- Lists the languages with their executors. -/
def languages (world : World) (path : Option String) : Except Ending Ending := do
  let settings ← settingsFrom world path
  let executors := (settings.registry world.worker).executors
  pure (succeed (String.join (executors.map fun (language, e) =>
    languageLine world.files language e)))

/-- Serves one request. -/
def serve (world : World) : Ending :=
  let transcript := Worker.serve.runOn world.input
  let output := (transcript.output.text?).getD ""
  let diagnostics := (transcript.diagnostics.text?).getD ""
  match transcript.result with
  | some .answered => ⟨0, output, diagnostics⟩
  | some (.failed fault) => ⟨1, output, diagnostics ++ (fail fault.message).diagnostics⟩
  | _ => ⟨134, output, diagnostics⟩

/-- Runs a command. -/
def runCommand (world : World) : Command → Ending
  | .evaluate options =>
    match evaluate world options with
    | .ok ending => ending
    | .error ending => ending
  | .languages path =>
    match languages world path with
    | .ok ending => ending
    | .error ending => ending
  | .serve => serve world

/-- Runs a program. -/
def run (mode : Mode) (world : World) (arguments : List String) : Ending :=
  match Invocation.ofArguments arguments with
  | .version => succeed (version ++ "\n")
  | .help => succeed (usage mode ++ "\n")
  | .misuse => misuse mode
  | .command command =>
    match command.or mode.defaultCommand with
    | none => fail "missing command"
    | some command =>
      if mode.allows command then runCommand world command else notAvailable mode command

end Polyglot.CommandLine
