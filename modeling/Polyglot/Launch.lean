import Polyglot.Executor
import Polyglot.Fault
import Polyglot.Worker.Service

/-!
# Starting executors

The program that an executor names is looked up among the files and started as a session. One of the
programs is the worker for scripts; what the others do is left open.
-/

namespace Polyglot.Launch

/-- Why a program cannot be started. -/
inductive StartError where
  /-- There is no such program, or it is none. -/
  | file (cause : FileError)
  /-- A text that it is given holds a null character. -/
  | nullCharacter
  deriving DecidableEq, Repr

/-- The text of a start error. -/
def StartError.message : StartError → String
  | file cause => cause.message
  | nullCharacter => "nul byte found in provided data"

/-- The name of the program that is the worker for scripts. -/
def workerName : String := "zscript-worker"

/-- The status that a worker ends with. -/
def statusOf : Worker.Ending → Nat
  | .answered => 0
  | .failed _ => 1
  | .brokenDown => 134

/-- The worker for scripts as a program: its only argument, if any, says that it is to serve. -/
def worker (arguments : List String) : Session Nat :=
  if arguments = [] ∨ arguments = ["serve"] then do pure (statusOf (← Worker.serve))
  else pure 2

/-- Whether a text that an executor gives to its program holds a null character. -/
def hasNull (e : Executor) : Bool :=
  (e.executable :: e.args ++ e.env.map (·.1) ++ e.env.map (·.2)).any (·.toList.contains '\x00')

/-- What programs do: the session of the program of a name, which sees some files and is started by an
executor. -/
abbrev Programs := FileTree → Executor → String → Session Nat

/-- The session of a program: the worker, or one of the others. -/
def program (others : Programs) (tree : FileTree) (e : Executor) (name : String) : Session Nat :=
  if name = workerName then worker e.args else others tree e name

/-- Starts the program of an executor. -/
def start (others : Programs) (tree : FileTree) (e : Executor) :
    Except StartError (Session Nat) :=
  if hasNull e then .error .nullCharacter
  else
    match tree.findProgram e.executable with
    | .error cause => .error (.file cause)
    | .ok (.program name) => .ok (program others tree e name)
    | .ok _ => .error (.file .denied)

/-- The fault of a program that cannot be started. -/
def startFault (language : String) (e : Executor) (cause : StartError) : Fault :=
  .process ("Could not start executor " ++ e.executable ++ " for " ++ language ++ ": " ++
    cause.message)

end Polyglot.Launch
