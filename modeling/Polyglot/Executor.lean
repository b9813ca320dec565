import Polyglot.FileTree
import Polyglot.Json.Record
import Polyglot.Text.Blank

/-!
# Executors

An executor tells how the worker for a language is started: the program, its arguments, and variables
of its environment.
-/

namespace Polyglot

/-- How a worker is started. -/
structure Executor where
  /-- The program, by name or by path. -/
  executable : String
  /-- The arguments. -/
  args : List String
  /-- The variables that are set for it. -/
  env : Json.Fields String
  deriving DecidableEq, Repr

namespace Executor

/-- The fields of a written executor, in order. -/
def fieldNames : List String := ["executable", "args", "env"]

/-- The executor that a draft is. -/
def ofDraft? (draft : Json.Draft) : Option Executor := do
  let record ← draft.record? fieldNames
  let field := Json.Fields.find? record
  let executable ← (← field "executable").text?
  let args ← Json.Draft.defaulted? [] (Json.Draft.items? Json.Draft.text?) (field "args")
  let env ← Json.Draft.defaulted? [] (Json.Draft.fields? Json.Draft.text?) (field "env")
  pure ⟨executable, args, env⟩

/-- Whether an argument is taken for the path of a file: it is one word with a slash in it, and no
option. -/
def isPath (argument : String) : Bool :=
  argument.toList.head? ≠ some '-' && argument.toList.contains '/' &&
    !argument.toList.any Text.isBlank

/-- The files among the arguments that are not there. -/
def absentFiles (tree : FileTree) (e : Executor) : List String :=
  e.args.filter fun argument => isPath argument && !tree.contains argument

end Executor

end Polyglot
