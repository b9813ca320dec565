import Polyglot.Text.Integer

/-!
# Arguments of the command line

The commands and their options. An option with a value has it after an equals sign or as the next
argument, which may not look like an option itself. No option may be given twice.
-/

namespace Polyglot.CommandLine

/-- The options of an evaluation. -/
structure EvaluateOptions where
  /-- The file with the call. -/
  input : Option String
  /-- The file with the configuration. -/
  config : Option String
  /-- The time allowed, in milliseconds. -/
  timeout : Option Nat
  /-- The file with the definitions of functions. -/
  definitions : Option String
  /-- Whether the worker may not call back. -/
  noReentrancy : Bool
  /-- Whether the envelope is indented. -/
  pretty : Bool

/-- A command. -/
inductive Command where
  /-- Evaluates a call. -/
  | evaluate (options : EvaluateOptions)
  /-- Lists the languages. -/
  | languages (config : Option String)
  /-- Serves one request. -/
  | serve

/-- The name of a command. -/
def Command.name : Command → String
  | evaluate _ => "evaluate"
  | languages _ => "languages"
  | serve => "serve"

/-- What arguments ask for. -/
inductive Invocation where
  /-- A command, or none. -/
  | command (command : Option Command)
  /-- The version. -/
  | version
  /-- Help. -/
  | help
  /-- Nothing that makes sense. -/
  | misuse

/-- An option: its name, and whether it has a value. -/
abbrev OptionForm := String × Bool

/-- Options that were given, with their values. -/
abbrev Given := List (String × String)

/-- What reading options leads to. -/
inductive Reading where
  /-- The options. -/
  | given (options : Given)
  /-- Help is asked for. -/
  | help
  /-- They make no sense. -/
  | misuse

/-- The name and the value of an option that has an equals sign. -/
def splitEquals (cs : List Char) : String × Option String :=
  match cs.dropWhile (· ≠ '=') with
  | _ :: value => (String.ofList (cs.takeWhile (· ≠ '=')), some (String.ofList value))
  | [] => (String.ofList cs, none)

/-- Whether an argument may be the value of the option before it. -/
def isValue (argument : String) : Bool :=
  argument = "-" || argument.toList.head? ≠ some '-'

/-- Adds an option to those given; a repeated one or an empty value makes no sense. -/
def addOption (name value : String) (takesValue : Bool) (given : Given) : Option Given :=
  if given.any (·.1 = name) || (takesValue && value = "") then none
  else some ((name, value) :: given)

/-- Reads options of the given forms. -/
def readOptions (forms : List OptionForm) : List String → Given → Reading
  | [], given => .given given
  | [argument], given => readOption argument none given (fun _ => .misuse) fun given => .given given
  | argument :: next :: rest, given =>
    readOption argument (some next) given (readOptions forms rest)
      (readOptions forms (next :: rest))
where
  /-- Reads one option, which may take the next argument as its value. -/
  readOption (argument : String) (next : Option String) (given : Given)
      (afterNext : Given → Reading) (afterThis : Given → Reading) : Reading :=
    if argument = "--" then if next.isNone then .given given else .misuse
    else if argument = "--help" || argument = "-h" then .help
    else
      match argument.toList with
      | '-' :: '-' :: cs =>
        let (name, value) := splitEquals cs
        match forms.find? (·.1 = name), value, next with
        | none, _, _ => .misuse
        | some (_, false), some _, _ => .misuse
        | some (_, false), none, _ =>
          match addOption name "" false given with
          | some given => afterThis given
          | none => .misuse
        | some (_, true), some value, _ =>
          match addOption name value true given with
          | some given => afterThis given
          | none => .misuse
        | some (_, true), none, none => .misuse
        | some (_, true), none, some value =>
          if isValue value then
            match addOption name value true given with
            | some given => afterNext given
            | none => .misuse
          else .misuse
      | _ => .misuse

/-- The value of an option. -/
def valueOf? (given : Given) (name : String) : Option String :=
  (given.find? (·.1 = name)).map (·.2)

/-- The options of an evaluation. -/
def evaluateForms : List OptionForm :=
  [("input", true), ("config", true), ("timeout-ms", true), ("definitions", true),
    ("no-reentrancy", false), ("pretty", false)]

/-- The time that an option says; it must be a natural number. -/
def timeoutOf? (given : Given) : Option (Option Nat) :=
  match valueOf? given "timeout-ms" with
  | none => some none
  | some s => (Text.readNat Text.maxNat64 s.toList).map some

/-- What the arguments after `evaluate` ask for. -/
def readEvaluate (arguments : List String) : Invocation :=
  match readOptions evaluateForms arguments [] with
  | .help => .help
  | .misuse => .misuse
  | .given given =>
    match timeoutOf? given with
    | none => .misuse
    | some timeout =>
      .command (some (.evaluate
        { input := valueOf? given "input"
          config := valueOf? given "config"
          timeout := timeout
          definitions := valueOf? given "definitions"
          noReentrancy := (valueOf? given "no-reentrancy").isSome
          pretty := (valueOf? given "pretty").isSome }))

/-- What the arguments after `languages` ask for. -/
def readLanguages (arguments : List String) : Invocation :=
  match readOptions [("config", true)] arguments [] with
  | .help => .help
  | .misuse => .misuse
  | .given given => .command (some (.languages (valueOf? given "config")))

/-- What the arguments after `serve` ask for. -/
def readServe (arguments : List String) : Invocation :=
  match readOptions [] arguments [] with
  | .help => .help
  | .misuse => .misuse
  | .given _ => .command (some .serve)

/-- What the arguments after `help` ask for: help about the program or about one command. -/
def readHelp : List String → Invocation
  | [] => .help
  | [name] => if ["evaluate", "languages", "serve", "help"].contains name then .help else .misuse
  | _ => .misuse

/-- What arguments ask for. -/
def Invocation.ofArguments : List String → Invocation
  | [] => .command none
  | ["--"] => .command none
  | "--version" :: _ => .version
  | "-V" :: _ => .version
  | "--help" :: _ => .help
  | "-h" :: _ => .help
  | "help" :: rest => readHelp rest
  | "evaluate" :: rest => readEvaluate rest
  | "languages" :: rest => readLanguages rest
  | "serve" :: rest => readServe rest
  | _ => .misuse

end Polyglot.CommandLine
