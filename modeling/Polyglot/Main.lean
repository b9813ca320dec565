import Polyglot.CommandLine.Run
import Polyglot.Shell.System

/-!
# The programs

Both programs are this one; which of them it is depends on the name that it is run by. The worker
serves on the standard streams. The evaluator reads the files that it may need and leaves all else to
`CommandLine.run`.
-/

namespace Polyglot.Main

/-- The variable that sets the time allowed. -/
def readVariable : IO (Option String) := IO.getEnv Settings.timeoutVariable

/-- Adds the file at a path, if there is one. -/
def addFile (tree : FileTree) (path : String) : IO FileTree := do
  let file : Option File ←
    try pure (some (File.text (← IO.FS.readFile path)))
    catch _ => pure none
  match file with
  | some file => pure (tree.add path file)
  | none => pure tree

/-- The arguments that may be paths, and the values in them. -/
def pathsOf (arguments : List String) : List String :=
  arguments.flatMap fun argument =>
    match CommandLine.splitEquals argument.toList with
    | (_, some value) => [argument, value]
    | (_, none) => [argument]

/-- The files that the executors in a tree of files may need. -/
def executorPaths (tree : FileTree) (paths : List String) : List String :=
  let configured := paths.flatMap fun path =>
    match Settings.load tree path with
    | .ok settings => settings.executors.flatMap fun (_, e) => e.args
    | .error _ => []
  (Registry.builtin "").executors.flatMap (fun (_, e) => e.args) ++ configured

/-- The files that may be needed for the given arguments. -/
def readFiles (arguments : List String) : IO FileTree := do
  let paths := pathsOf arguments
  let tree ← paths.foldlM addFile FileTree.system
  (executorPaths tree paths).foldlM addFile tree

/-- Reads all of the input. -/
partial def readAll (input : IO.FS.Stream) (before : String) : IO String := do
  let line ← input.getLine
  if line.isEmpty then pure before else readAll input (before ++ line)

/-- What stands for measured values: nothing is measured, as all programs run within this one. -/
def measurement : Measurement where
  startTime := "1970-01-01T00:00:00.000Z"
  endTime := "1970-01-01T00:00:00.000Z"
  own := ⟨0, 0⟩
  worker := ⟨0, 0⟩
  host := "localhost"

/-- Whether arguments ask for a call to be read from the input. -/
def needsInput (arguments : List String) : Bool :=
  match CommandLine.Invocation.ofArguments arguments with
  | .command (some (.evaluate options)) => options.input.isNone
  | _ => false

/-- The path of the worker for scripts, which stands beside the evaluator. -/
def workerPath : String := "./zscript-worker"

/-- What a program can see. -/
def readWorld (arguments : List String) : IO CommandLine.World := do
  let files ← readFiles arguments
  let input ← if needsInput arguments then readAll (← IO.getStdin) "" else pure ""
  pure
    { files := files.add workerPath (.program Launch.workerName)
      programs := Shell.programs
      timeoutVariable := ← readVariable
      input := Text.Raw.ofString input
      worker := workerPath
      measurement := measurement }

/-! ### Serving -/

/-- Reads a line that is not to be skipped. -/
partial def readLine (input : IO.FS.Stream) (skip : Text.Raw → Bool) : IO Text.Raw := do
  let line ← try pure (Text.Raw.ofString (← input.getLine)) catch _ => pure [none]
  if line ≠ [] && skip line then readLine input skip else pure line

/-- The text of what is written, octets that are no text being left out. -/
def writtenText (text : Text.Raw) : String := String.ofList (text.filterMap id)

/-- Runs a session on the standard streams; nothing if it never ends. -/
def runSession {α : Type} : Session α → IO (Option α)
  | .done a => pure (some a)
  | .endless => pure none
  | .write sink text next => do
    let stream ← match sink with
      | .output => IO.getStdout
      | .diagnostics => IO.getStderr
    stream.putStr (writtenText text)
    stream.flush
    runSession (next ())
  | .close _ next => runSession (next ())
  | .read skip next => do
    let line ← readLine (← IO.getStdin) skip
    runSession (next line)
  | .closeInput next => runSession (next ())
  | .sleep ms next => do
    IO.sleep ms.toUInt32
    runSession (next ())

/-- Serves one request on the standard streams. -/
def serve : IO UInt32 := do
  match ← runSession Worker.serve with
  | some (.failed fault) => do
    (← IO.getStderr).putStr (CommandLine.fail fault.message).diagnostics
    pure 1
  | some .answered => pure 0
  | _ => pure 134

/-- Runs a program to its end. -/
def runProgram (mode : CommandLine.Mode) (arguments : List String) : IO UInt32 := do
  let ending := CommandLine.run mode (← readWorld arguments) arguments
  (← IO.getStdout).putStr ending.output
  (← IO.getStderr).putStr ending.diagnostics
  pure ending.status.toUInt32

/-- Whether the worker is asked to serve. -/
def asksToServe (arguments : List String) : Bool :=
  match CommandLine.Invocation.ofArguments arguments with
  | .command none => true
  | .command (some .serve) => true
  | _ => false

end Polyglot.Main

open Polyglot Polyglot.Main in
/-- The evaluator, or the worker if the program is called so. -/
def main (arguments : List String) : IO UInt32 := do
  let isWorker := (← IO.appPath).fileName = some Launch.workerName
  if isWorker && asksToServe arguments then serve
  else runProgram (if isWorker then .worker else .evaluator) arguments
