import Polyglot.Registry
import Polyglot.Fault
import Polyglot.Request
import Polyglot.Wire.GenericType

/-!
# Function calls

A call is an object whose `Z7K1` is the function, with its implementations in `Z8K4`, and whose other
fields are the arguments. Only the first implementation is looked at: it tells the language and the
code.

A call that a worker makes names its function only; `expand` puts the definition in its place.
-/

namespace Polyglot

/-- The language and the code of a function. -/
structure Implementation where
  /-- The language. -/
  language : String
  /-- The code, if it is a text. -/
  code : Option String
  deriving DecidableEq, Repr

namespace Call

/-- The text of a string literal, bare or as an object, or the target of a reference. -/
def textOf? : Json → Option String
  | .str s => some s
  | .obj fields =>
    ((Json.Fields.find? fields "Z6K1").or (Json.Fields.find? fields "Z9K1")).bind Json.str?
  | _ => none

/-- The function of a call, if its definition is given. -/
def function? (call : Json) : Option Json := (call.field? "Z7K1").filter Json.isObject

/-- Whether a value is a string. -/
def isString (j : Json) : Bool := j.str?.isSome

/-- The implementations of a function, in a list of any form; an array may begin with the type of its
items. -/
def implementations (function : Json) : List Json :=
  match function.field? "Z8K4" with
  | some (.arr (first :: rest)) => if isString first then rest else first :: rest
  | some (.arr []) => []
  | some list => (Wire.listElements list).toOption.getD []
  | none => []

/-- The language of a piece of code, which may be a language object, a literal or a reference. -/
def languageOf? (code : Json) : Option String := do
  let language ← code.field? "Z16K1"
  (((language.field? "Z61K1").bind textOf?).or (textOf? language)).filter (· ≠ "")

/-- The fault of a call that tells no language. -/
def noLanguage : Fault := .resolution "Unable to find programming language in function call."

/-- The first implementation of the function of a call, if it tells a language. -/
def implementation? (call : Json) : Option Implementation := do
  let function ← function? call
  let first ← (implementations function).head?
  let code ← first.field? "Z14K3"
  let language ← languageOf? code
  pure ⟨language, (code.field? "Z16K2").bind textOf?⟩

/-- The first implementation of the function of a call. -/
def implementation (call : Json) : Except Fault Implementation :=
  match implementation? call with
  | some i => .ok i
  | none => .error noLanguage

/-- The fields of a call that are its arguments. -/
def arguments : Json → Json.Fields Json
  | .obj fields => (Json.Fields.erase fields "Z1K1").erase "Z7K1"
  | _ => []

/-- The request for a call. -/
def request (call : Json) (i : Implementation) : Request where
  name := ((function? call).bind (·.field? "Z8K5")).bind textOf?
  code := i.code
  arguments := arguments call
  returnType := (function? call).bind (·.field? "Z8K2")

/-! ### The executor of a call -/

/-- The fault of a language that no executor runs. -/
def noExecutor (language : String) : Fault :=
  .resolution ("No executor found for programming language " ++ language ++ ".")

/-- The fault of an executor that lacks a file. -/
def notInstalled (language file : String) : Fault :=
  .resolution ("Executor for programming language " ++ language ++ " is not installed: " ++ file ++
    " not found.")

/-- The implementation of a call and the executor for it. -/
def executor (registry : Registry) (tree : FileTree) (call : Json) :
    Except Fault (Implementation × Executor) := do
  let i ← implementation call
  match registry.find? i.language with
  | none => .error (noExecutor i.language)
  | some e =>
    match e.absentFiles tree with
    | file :: _ => .error (notInstalled i.language file)
    | [] => .ok (i, e)

/-! ### Definitions -/

/-- The definitions of functions, by their identifiers. -/
abbrev Definitions := Json.Fields Json

/-- The definitions that a text holds. -/
def readDefinitions (s : String) : Except Fault Definitions :=
  match Json.read? s with
  | some (.obj fields) => .ok fields
  | _ => .error (.config "Invalid function definitions: not an object")

/-- The definitions in a file. -/
def loadDefinitions (tree : FileTree) (path : String) : Except Fault Definitions :=
  match tree.read path with
  | .ok content => readDefinitions content
  | .error e => .error (.io e.message)

/-- Whether the definition of a function is given in a call. -/
def isInline (target : Json) : Bool := target.isObject && (target.field? "Z9K1").isNone

/-- What finds the definition of a function by its identifier, if there is one. -/
abbrev Resolver := String → Option Json

/-- The definition of the function that a call is for. -/
def target (resolve : Resolver) (target : Json) : Except Fault Json :=
  if isInline target then .ok target
  else
    match textOf? target with
    | none => .error (.requestShape ("Unusable function reference " ++ target.render ++ "."))
    | some id =>
      match resolve id with
      | some function => .ok function
      | none => .error (.resolution ("Unable to resolve function " ++ id ++ "."))

/-- The call with the definition of its function. -/
def expandWith (resolve : Resolver) : Json → Except Fault Json
  | .obj fields =>
    match Json.Fields.find? fields "Z7K1" with
    | none => .error (.requestShape "Reentrant call does not name a function.")
    | some function => do
      let function ← target resolve function
      let fields := Json.Fields.insert "Z1K1" (Wire.reference TypeId.call) fields
      pure (.obj (fields.insert "Z7K1" function))
  | _ => .error (.requestShape "Reentrant call is not a function call object.")

/-- The call with the definition of its function, which is among the given ones. -/
def expand (definitions : Definitions) (request : Json) : Except Fault Json :=
  expandWith definitions.find? request

end Call

end Polyglot
