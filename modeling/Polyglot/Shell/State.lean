import Polyglot.FileTree
import Polyglot.Session
import Polyglot.Shell.Command

/-!
# The state of a running shell

Variables, functions, arguments, and where the streams lead. A part of a run changes the state, acts
on the streams of the session, and may leave what is around it by a jump.
-/

namespace Polyglot.Shell

open Polyglot.Text (Raw)

/-- Where input is read from. -/
inductive Input where
  /-- From the input of the session. -/
  | stream
  /-- From a text. -/
  | text (rest : Raw)
  /-- From nowhere. -/
  | closed

/-- The state of a shell. -/
structure State where
  /-- The files that it can see. -/
  files : FileTree
  /-- What it is called. -/
  name : String
  /-- The variables. -/
  vars : List (String × Raw)
  /-- The functions. -/
  functions : List (String × Command)
  /-- The arguments. -/
  arguments : List Raw
  /-- The status of the last command. -/
  status : Nat
  /-- Where input is read from. -/
  input : Input
  /-- Where the numbered streams lead that are written to. -/
  outputs : List (Nat × Option Sink)
  /-- Commands that run beside the others; they are run when the others wait or have ended. -/
  jobs : List Command
  /-- Whether the shell ends when a command fails that nothing looks at. -/
  stopsOnFailure : Bool
  /-- What is run when the shell ends. -/
  atExit : Option (List Char)
  /-- The values that variables had before they became local, the last one first. -/
  hidden : List (String × Option Raw)

/-- What leaves the commands around it. -/
inductive Jump where
  /-- The shell ends. -/
  | exit
  /-- The process is ended from outside. -/
  | kill
  /-- A function ends. -/
  | return
  /-- Loops end. -/
  | break (loops : Nat)
  /-- Loops end, the last one only for this time. -/
  | continue (loops : Nat)

/-- A part of a run. -/
abbrev Run (α : Type) := ExceptT Jump (StateT State Session) α

namespace Run

variable {α : Type}

/-- Acts on the streams of the session. -/
def ofSession (s : Session α) : Run α := ExceptT.lift (StateT.lift s)

/-- The result of a part, whether it jumps or not. -/
def attempt (part : Run α) : Run (Except Jump α) := ExceptT.lift (ExceptT.run part)

/-- Sets the status of the last command. -/
def setStatus (status : Nat) : Run Unit := modify fun s => { s with status := status }

/-- Ends the shell if the last command has failed, where that is to be. -/
def stopOnFailure : Run Unit := do
  let s ← get
  if s.stopsOnFailure && s.status ≠ 0 then throw .exit

/-- Runs a part whose failure is looked at. -/
def watched (part : Run Unit) : Run Unit := do
  let before := (← get).stopsOnFailure
  modify fun s => { s with stopsOnFailure := false }
  let result ← attempt part
  modify fun s => { s with stopsOnFailure := before }
  match result with
  | .ok _ => pure ()
  | .error jump => throw jump

/-- Runs a part and undoes all changes but the status. -/
def apart (part : Run Unit) : Run Unit := do
  let saved ← get
  modify fun s => { s with atExit := none }
  let result ← attempt part
  let status := (← get).status
  set { saved with status := status }
  match result with
  | .error .kill => throw .kill
  | _ => pure ()

/-! ### Variables -/

/-- The value of a variable. -/
def valueOf? (name : String) : Run (Option Raw) := do
  pure (((← get).vars.find? fun v => v.1 = name).map (·.2))

/-- Sets a variable. -/
def setVariable (name : String) (value : Raw) : Run Unit :=
  modify fun s => { s with vars := (name, value) :: s.vars.filter (·.1 ≠ name) }

/-- The characters that separate fields. -/
def separators : Run (List Char) := do
  match ← valueOf? "IFS" with
  | some value => pure (value.filterMap id)
  | none => pure [' ', '\t', '\n']

/-! ### Streams -/

/-- Where a numbered stream leads. -/
def outputAt (outputs : List (Nat × Option Sink)) (n : Nat) : Option Sink :=
  ((outputs.find? fun o => o.1 = n).map (·.2)).join

/-- Writes to a numbered stream. -/
def emit (n : Nat) (text : Raw) : Run Unit := do
  match outputAt (← get).outputs n with
  | some sink => ofSession (.write sink text fun _ => .done ())
  | none => pure ()

/-- Writes a line to the stream of diagnostics. -/
def complain (message : String) : Run Unit := do
  emit 2 (Raw.ofString ((← get).name ++ ": 1: " ++ message ++ "\n"))

/-- Reads a line with its newline. -/
def readLine : Run Raw := do
  match (← get).input with
  | .stream => ofSession (Session.readLine fun _ => false)
  | .text rest =>
    let (line, rest) := Raw.splitLine rest
    modify fun s => { s with input := .text rest }
    pure line
  | .closed => pure []

/-- Reads all lines, up to a number of them. -/
def readLines : (fuel : Nat) → Run (List Raw)
  | 0 => ofSession .endless
  | fuel + 1 => do
    let line ← readLine
    if line = [] then pure []
    else
      let lines ← readLines fuel
      pure (line :: lines)

end Run

/-- Takes what a session writes as its output, and lets all else happen. -/
def gather {α : Type} : Session α → Raw → Session (α × Raw)
  | .done a, acc => .done (a, acc)
  | .endless, _ => .endless
  | .write .output text next, acc => gather (next ()) (acc ++ text)
  | .write .diagnostics text next, acc => .write .diagnostics text fun _ => gather (next ()) acc
  | .close .output next, acc => gather (next ()) acc
  | .close .diagnostics next, acc => .close .diagnostics fun _ => gather (next ()) acc
  | .read skip next, acc => .read skip fun line => gather (next line) acc
  | .closeInput next, acc => .closeInput fun _ => gather (next ()) acc
  | .sleep ms next, acc => .sleep ms fun _ => gather (next ()) acc

/-- What a part writes as its output; it keeps its changes to itself. -/
def Run.outputOf (part : Run Unit) : Run Raw :=
  let inner : Run Unit := do
    modify fun s => { s with outputs := (1, some .output) :: s.outputs.filter (·.1 ≠ 1) }
    part
  ExceptT.mk fun s => do
    let ((result, state), text) ← gather ((Run.apart inner).run.run s) []
    pure (result.map fun _ => text, state)

end Polyglot.Shell
