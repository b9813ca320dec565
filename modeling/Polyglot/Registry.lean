import Polyglot.Executor

/-!
# The registry of languages

Which executor runs which language. There is a built-in table, to which a configuration may add.
-/

namespace Polyglot

/-- Executors by the languages that they run. -/
structure Registry where
  /-- The executors, by language. -/
  executors : Json.Fields Executor

namespace Registry

/-- The registry without any language. -/
def empty : Registry := ⟨[]⟩

/-- Adds or replaces the executor of a language. -/
def register (r : Registry) (language : String) (e : Executor) : Registry :=
  ⟨r.executors.insert language e⟩

/-- Adds or replaces executors. -/
def registerAll (r : Registry) (executors : List (String × Executor)) : Registry :=
  executors.foldl (fun r (language, e) => r.register language e) r

/-- The executor of a language. -/
def find? (r : Registry) (language : String) : Option Executor := r.executors.find? language

/-- The languages, in order. -/
def languages (r : Registry) : List String := r.executors.map (·.1)

/-! ### The built-in table -/

/-- The names of JavaScript and its versions. -/
def javascript : List String :=
  ["javascript", "javascript-es2015", "javascript-es2016", "javascript-es2017",
    "javascript-es2018", "javascript-es2019", "javascript-es2020", "Z600"]

/-- The names of Python and its versions. -/
def python : List String :=
  ["python", "python-3", "python-3-7", "python-3-8", "python-3-9", "Z610"]

/-- The name of the language of scripts. -/
def script : String := "zscript"

/-- The executor of JavaScript. -/
def javascriptExecutor : Executor := ⟨"node", ["executors/javascript/executor.js"], []⟩

/-- The executor of Python, whose streams are not buffered so that calls are seen at once. -/
def pythonExecutor : Executor :=
  ⟨"python3", ["-u", "executors/python3/executor.py"], [("PYTHONPATH", "executors")]⟩

/-- The built-in table; scripts are run by the worker at the given path. -/
def builtin (worker : String) : Registry :=
  empty.registerAll
    (javascript.map (·, javascriptExecutor) ++ python.map (·, pythonExecutor) ++
      [(script, ⟨worker, [], []⟩)])

end Registry

end Polyglot
