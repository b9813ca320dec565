import Polyglot.Launch

/-!
# Processes

A process is a program that has been started for a language, with pipes to its three streams. The
party that started it may write to the input until it closes it, take each output once, and terminate
the process, which only the first attempt does.

The program goes on only when something is wanted from it: `WorkerProcess.advance` runs it until there is
enough, or until it ends or waits for input.
-/

namespace Polyglot

open Polyglot.Text (Raw)

/-- What a process has written to one of its outputs. -/
structure Pipe where
  /-- What has not been read yet. -/
  text : Raw
  /-- Whether nothing will follow. -/
  ended : Bool
  /-- Whether somebody has taken it for reading. -/
  taken : Bool

namespace Pipe

/-- A pipe that nothing has been written to. -/
def empty : Pipe := ⟨[], false, false⟩

/-- A pipe after something has been written to it. -/
def write (p : Pipe) (text : Raw) : Pipe :=
  if p.ended then p else { p with text := p.text ++ text }

/-- A pipe that nothing will be written to any more. -/
def finish (p : Pipe) : Pipe := { p with ended := true }

/-- Whether a whole line can be read, or all that there is. -/
def hasLine (p : Pipe) : Bool := p.ended || p.text.contains (some '\n')

end Pipe

/-- A program that has been started. -/
structure WorkerProcess where
  /-- Its number. -/
  pid : Nat
  /-- The language that it was started for. -/
  language : String
  /-- What it does next. -/
  session : Session Nat
  /-- What has been written to it and not been read. -/
  inbox : Raw
  /-- Whether its input has not been closed from outside. -/
  inputOpen : Bool
  /-- Whether it has not closed its input itself. -/
  listening : Bool
  /-- Its output. -/
  output : Pipe
  /-- What it says beside that. -/
  diagnostics : Pipe
  /-- Whether it has been terminated. -/
  terminated : Bool

namespace WorkerProcess

/-- Starts the program of an executor for a language. -/
def start (others : Launch.Programs) (tree : FileTree) (language : String) (e : Executor) :
    Except Fault WorkerProcess :=
  match Launch.start others tree e with
  | .ok session =>
    .ok
      { pid := 1
        language := language
        session := session
        inbox := []
        inputOpen := true
        listening := true
        output := .empty
        diagnostics := .empty
        terminated := false }
  | .error cause => .error (Launch.startFault language e cause)

/-! ### Letting it run -/

/-- The output that leads to a sink. -/
def pipe (p : WorkerProcess) : Sink → Pipe
  | .output => p.output
  | .diagnostics => p.diagnostics

/-- Changes the output that leads to a sink. -/
def changePipe (p : WorkerProcess) (sink : Sink) (f : Pipe → Pipe) : WorkerProcess :=
  match sink with
  | .output => { p with output := f p.output }
  | .diagnostics => { p with diagnostics := f p.diagnostics }

/-- A process whose program has ended. -/
def afterEnd (p : WorkerProcess) (session : Session Nat) : WorkerProcess :=
  { p with
    session := session
    listening := false
    output := p.output.finish
    diagnostics := p.diagnostics.finish }

/-- Runs the program until there is enough, or until it ends or waits for input. -/
def advanceSession (enough : WorkerProcess → Bool) : Session Nat → WorkerProcess → WorkerProcess
  | .done status, p => p.afterEnd (.done status)
  | .endless, p => { p with session := .endless }
  | .write sink text next, p =>
    if enough p then { p with session := .write sink text next }
    else advanceSession enough (next ()) (p.changePipe sink (·.write text))
  | .close sink next, p =>
    if enough p then { p with session := .close sink next }
    else advanceSession enough (next ()) (p.changePipe sink Pipe.finish)
  | .read skip next, p =>
    if enough p then { p with session := .read skip next }
    else
      let (line, inbox) := Session.nextLine skip p.inbox
      if line = [] && p.inputOpen && p.listening then { p with session := .read skip next }
      else advanceSession enough (next line) { p with inbox := inbox }
  | .closeInput next, p =>
    if enough p then { p with session := .closeInput next }
    else advanceSession enough (next ()) { p with listening := false, inbox := [] }
  | .sleep ms next, p =>
    if enough p then { p with session := .sleep ms next }
    else advanceSession enough (next ()) p

/-- Runs the program until there is enough, or until it ends or waits for input. -/
def advance (enough : WorkerProcess → Bool) (p : WorkerProcess) : WorkerProcess :=
  advanceSession enough p.session p

/-! ### What the other party does -/

/-- The fault of writing to an input that has been closed. -/
def inputClosed (p : WorkerProcess) : Fault :=
  .process ("stdin of pid " ++ toString p.pid ++ " is already closed")

/-- The fault of reading an output that somebody reads already. -/
def outputTaken (p : WorkerProcess) : Fault :=
  .process ("output of pid " ++ toString p.pid ++ " is already being read")

/-- Writes a line to the input. -/
def writeLine (p : WorkerProcess) (line : String) : Except Fault Unit × WorkerProcess :=
  if !p.inputOpen then (.error p.inputClosed, p)
  else if !p.listening then (.error (.io "Broken pipe (os error 32)"), p)
  else (.ok (), { p with inbox := p.inbox ++ Raw.ofString (line ++ "\n") })

/-- Closes the input; tells whether it was open. -/
def closeInput (p : WorkerProcess) : Bool × WorkerProcess := (p.inputOpen, { p with inputOpen := false })

/-- Takes an output for reading; tells whether nobody had taken it. -/
def take (p : WorkerProcess) (sink : Sink) : Bool × WorkerProcess :=
  (!(p.pipe sink).taken, p.changePipe sink fun pipe => { pipe with taken := true })

/-- Reads the next line of an output with its newline; nothing at its end. -/
def readLine (p : WorkerProcess) (sink : Sink) : Raw × WorkerProcess :=
  let p := p.advance fun p => (p.pipe sink).hasLine
  let (line, rest) := Raw.splitLine (p.pipe sink).text
  (line, p.changePipe sink fun pipe => { pipe with text := rest })

/-- Reads an output to its end. -/
def readRest (p : WorkerProcess) (sink : Sink) : Raw × WorkerProcess :=
  let p := p.advance fun p => (p.pipe sink).ended
  ((p.pipe sink).text, p.changePipe sink fun pipe => { pipe with text := [] })

/-- Terminates the process; tells whether it had not been terminated before. -/
def terminate (p : WorkerProcess) : Bool × WorkerProcess :=
  if p.terminated then (false, p)
  else (true, { p.afterEnd (.done 137) with terminated := true, inputOpen := false })

/-- A process is terminated only once. -/
theorem terminate_terminate (p : WorkerProcess) : (p.terminate.2).terminate.1 = false := by
  unfold terminate
  split <;> simp_all

end WorkerProcess

end Polyglot
