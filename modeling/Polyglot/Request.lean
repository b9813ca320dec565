import Polyglot.Json.Printer
import Polyglot.Json.Record

/-!
# Requests

A request asks a worker to run one function: its name, its code, its arguments by key, and the type
to return. It is written on one line. `Request.read?` reads what `Request.render` writes.
-/

namespace Polyglot

/-- What a worker is asked to run. -/
structure Request where
  /-- The name of the function. -/
  name : Option String
  /-- The code that defines it. -/
  code : Option String
  /-- The arguments, by key. -/
  arguments : Json.Fields Json
  /-- The type to return. -/
  returnType : Option Json

namespace Request

/-- The fields of a written request, in order. -/
def fieldNames : List String := ["functionName", "codeString", "functionArguments", "returnType"]

/-- The fields of an object. -/
def objectFields? : Json → Option (Json.Fields Json)
  | .obj fields => some fields
  | _ => none

/-- The request that a draft is, its arguments and type read by the given function. -/
def ofDraft? (settle? : Json.Draft → Option Json) (draft : Json.Draft) : Option Request := do
  let record ← draft.record? fieldNames
  let field := Json.Fields.find? record
  let name ← Json.Draft.optional? Json.Draft.text? (field "functionName")
  let code ← Json.Draft.optional? Json.Draft.text? (field "codeString")
  let arguments ← Json.Draft.defaulted? [] (fun part => (settle? part).bind objectFields?)
    (field "functionArguments")
  let returnType ← Json.Draft.optional? settle? (field "returnType")
  pure ⟨name, code, arguments, returnType⟩

/-- The request that a text is; nesting is limited as in other texts. -/
def read? (s : String) : Option Request :=
  (Json.Draft.ofText? s).bind (ofDraft? (Json.Draft.settleWithin? (Json.maxDepth - 1)))

/-- The request that a value is. -/
def ofJson? (j : Json) : Option Request := ofDraft? Json.Draft.settle? (Json.Draft.ofJson j)

/-- A field that may be left out. -/
def optionalField (name : String) : Option Json → List (String × Json)
  | none => []
  | some value => [(name, value)]

/-- The fields that are written. -/
def fields (r : Request) : List (String × Json) :=
  optionalField "functionName" (r.name.map .str) ++ optionalField "codeString" (r.code.map .str) ++
    ("functionArguments", .obj r.arguments) :: optionalField "returnType" r.returnType

/-- The line that a request is written on, without the newline; its fields are in the order of
`fieldNames`. -/
def render (r : Request) : String := (Json.obj r.fields).render

end Request

end Polyglot
