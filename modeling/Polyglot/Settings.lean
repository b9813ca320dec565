import Polyglot.Fault
import Polyglot.Registry
import Polyglot.Text.Integer
import Polyglot.Text.Quoted

/-!
# Settings

The time that a call may take, and executors that are added to the built-in ones. A configuration is
read from JSON text; a variable of the environment may set another time.
-/

namespace Polyglot

/-- What can be configured. -/
structure Settings where
  /-- How long a call may take, in milliseconds. -/
  timeout : Nat
  /-- Executors by language. -/
  executors : Json.Fields Executor

namespace Settings

/-- How long a call may take unless said otherwise. -/
def defaultTimeout : Nat := 15000

/-- The settings where nothing is said. -/
def default : Settings := ⟨defaultTimeout, []⟩

/-- The fields of a written configuration, in order. -/
def fieldNames : List String := ["timeout_ms", "executors"]

/-- The settings that a draft is. -/
def ofDraft? (draft : Json.Draft) : Option Settings := do
  let record ← draft.record? fieldNames
  let field := Json.Fields.find? record
  let timeout ← Json.Draft.defaulted? defaultTimeout Json.Draft.nat64? (field "timeout_ms")
  let executors ←
    Json.Draft.defaulted? [] (Json.Draft.fields? Executor.ofDraft?) (field "executors")
  pure ⟨timeout, executors⟩

/-- The settings that a text is. -/
def read (s : String) : Except Fault Settings :=
  match (Json.Draft.ofText? s).bind ofDraft? with
  | none => .error (.config "Failed to parse config JSON: not a configuration")
  | some settings =>
    if settings.timeout = 0 then .error (.config "timeout_ms must be greater than zero")
    else .ok settings

/-- The settings in a file. -/
def load (tree : FileTree) (path : String) : Except Fault Settings :=
  match tree.read path with
  | .ok content => read content
  | .error e => .error (.config ("Failed to read config file: " ++ e.message))

/-- The variable of the environment that sets the time. -/
def timeoutVariable : String := "FUNCTION_EVALUATOR_TIMEOUT_MS"

/-- The time that a variable says. -/
def readTimeout (s : String) : Except Fault Nat :=
  match (Text.readNat Text.maxNat64 (Text.trimChars s.toList)).filter (· ≠ 0) with
  | some ms => .ok ms
  | none =>
    .error (.config (timeoutVariable ++ " must be a positive integer, got " ++ Text.quoted s))

/-- The settings with the time that the variable says, if it is set. -/
def withVariable (settings : Settings) : Option String → Except Fault Settings
  | none => .ok settings
  | some s => (readTimeout s).map fun ms => { settings with timeout := ms }

/-- The built-in executors and those of the settings. -/
def registry (settings : Settings) (worker : String) : Registry :=
  (Registry.builtin worker).registerAll settings.executors

end Settings

end Polyglot
