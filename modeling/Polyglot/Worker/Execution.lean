import Polyglot.Codec.Decoding
import Polyglot.Codec.Encoding
import Polyglot.Envelope
import Polyglot.Request.Binding
import Polyglot.Script.Run

/-!
# Executing a request

A request names a function and gives its code. Its arguments are put in order and decoded, the code is
compiled and run, and the result is encoded as the type that the request asks for and put into an
envelope. Calls to other functions that the code makes are left to the reader of the `Talk`.
-/

namespace Polyglot.Worker

/-- Why a request is not answered with a value. -/
inductive Failure where
  /-- There is a fault. -/
  | fault (cause : Fault)
  /-- Encoding a value does not end. -/
  | endless
  deriving DecidableEq, Repr

/-- The failure of an encoding. -/
def Failure.ofEncode : Codec.EncodeFailure → Failure
  | .error cause => .fault (.codec cause)
  | .endless => .endless

/-- A part of the execution of a request. -/
abbrev Execution := ExceptT Failure Talk

/-- The result of a part that may have a fault. -/
def ofFault {α : Type} : Except Fault α → Execution α
  | .ok a => pure a
  | .error fault => throw (.fault fault)

/-- The result of an encoding. -/
def ofEncode : Except Codec.EncodeFailure Json → Execution Json
  | .ok wire => pure wire
  | .error failure => throw (.ofEncode failure)

/-- The fault of a request without a part that it needs. -/
def lacking (part : String) : Fault :=
  .requestShape ("Function call request did not supply " ++ part ++ ".")

/-- The name of the function to run. -/
def nameOf (request : Request) : Except Fault String :=
  match request.name with
  | some name => if name = "" then .error (lacking "functionName") else .ok name
  | none => .error (lacking "functionName")

/-- The code to run. -/
def codeOf (request : Request) : Except Fault String :=
  match request.code with
  | some code => if Text.isBlankText code then .error (lacking "codeString") else .ok code
  | none => .error (lacking "codeString")

/-- The values of arguments. -/
def decodeAll (arguments : List Json) : Except Fault (List Value) :=
  arguments.mapM fun wire => (Codec.builtin.decode wire).mapError Fault.codec

/-- A result as it stands in an envelope: a void one would look as if there were none, so the unit
object stands for it. -/
def visible (wire : Json) : Json := if Envelope.isVoid wire then Codec.unitWire else wire

/-- The type that a request asks for. -/
def typeOf (request : Request) : Json := request.returnType.getD (Wire.reference TypeId.any)

/-- The envelope that answers a request. -/
def execute (request : Request) : Execution Json := do
  let name ← ofFault (nameOf request)
  let code ← ofFault (codeOf request)
  let arguments ← ofFault (Request.bind name request.arguments)
  let arguments ← ofFault (decodeAll arguments)
  let program ← ofFault (Script.compile code)
  let result ← ofFault (← (Script.invoke program name arguments : Talk _))
  let wire ← ofEncode (Codec.builtin.encode result (typeOf request))
  pure (Envelope.make (some (visible wire)) none)

end Polyglot.Worker
