import Polyglot.Session
import Polyglot.Worker.Execution

/-!
# Serving a request on streams

A worker reads one request, answers it with one envelope, and says `end` beside that. While the code
runs, each call to another function is written as a line that begins with `call `, and the next line
of input that is not blank is the reply to it.

Every fault becomes an envelope, so the worker itself fails only when its input is not text.
-/

namespace Polyglot.Worker

/-- What a line begins with that calls another function. -/
def callMark : String := "call "

/-- What is said when no more input will be read. -/
def endMark : String := "end"

/-- How a worker ends. -/
inductive Ending where
  /-- It has written an envelope. -/
  | answered
  /-- A stream has failed. -/
  | failed (cause : Fault)
  /-- It has broken down while encoding a value. -/
  | brokenDown
  deriving DecidableEq, Repr

/-- Whether a line holds nothing but blanks. -/
def isBlankLine (line : Text.Raw) : Bool := line.all fun c => c.any Text.isBlank

/-- The fault of input that is not text. -/
def notText : Fault := .io "stream did not contain valid UTF-8"

/-- What a line says without the blanks around it; nothing if the input has ended. -/
def lineText (line : Text.Raw) : Except Fault (Option String) :=
  if line = [] then .ok none
  else
    match line.text? with
    | some s => .ok (some (Text.trim s))
    | none => .error notText

/-! ### Calls to other functions -/

/-- The key of an argument of a call. -/
def argumentKey (function : String) (position : Nat) : String :=
  function ++ "K" ++ toString position

/-- Adds the arguments of a call, from a position on. -/
def addArguments (function : String) (fields : Json.Fields Json) (position : Nat) :
    List Value → Except Codec.EncodeFailure (Json.Fields Json)
  | [] => .ok fields
  | argument :: rest => do
    let wire ← Codec.builtin.encodeAny argument
    addArguments function (fields.insert (argumentKey function position) wire) (position + 1) rest

/-- The object that calls a function. -/
def callObject (function : String) (arguments : List Value) : Except Codec.EncodeFailure Json :=
  (addArguments function [("Z1K1", .str TypeId.call), ("Z7K1", .str function)] 1 arguments).map
    Json.obj

/-- The line that a call is written on, without the newline. -/
def callLine (call : Json) : String := callMark ++ call.render

/-- The value that a reply is: the value in an envelope, or any other wire value. -/
def readReply (function : String) (reply : Json) : Except Fault Value :=
  if Envelope.isEnvelope reply then
    if (Envelope.error? reply).isSome then
      .error (.execution ("Call to " ++ function ++ " failed: " ++
        (Envelope.errorMessage? reply).getD "unknown error"))
    else
      match Envelope.value? reply with
      | some wire => (Codec.builtin.decode wire).mapError Fault.codec
      | none => .ok .unit
  else (Codec.builtin.decode reply).mapError Fault.codec

/-- The value that a line replies to a call. -/
def replyOf (function : String) (line : Text.Raw) : Except Fault Value := do
  match ← lineText line with
  | none =>
    .error (.process ("Input closed before the call to " ++ function ++ " was answered."))
  | some text =>
    match Json.read? text with
    | some reply => readReply function reply
    | none => .error (.process ("malformed reply to call to " ++ function ++ ": invalid JSON"))

/-- Makes the calls of a computation on the streams; nothing if encoding an argument does not end. -/
def converse {α : Type} : Talk α → Session (Option α)
  | .done a => .done (some a)
  | .call function arguments next =>
    match callObject function arguments with
    | .error (.error cause) => converse (next (.error (.codec cause)))
    | .error .endless => .done none
    | .ok call =>
      .write .output (Text.Raw.ofString (callLine call ++ "\n")) fun _ =>
        .read isBlankLine fun line => converse (next (replyOf function line))

/-! ### Serving -/

/-- Answers with an envelope and ends. -/
def answer (envelope : Json) : Session Ending := do
  Session.put .output (envelope.render ++ "\n")
  Session.put .diagnostics (endMark ++ "\n")
  pure .answered

/-- Answers a request. -/
def serveRequest (request : Request) : Session Ending := do
  match ← converse (execute request).run with
  | some (.ok envelope) => answer envelope
  | some (.error (.fault fault)) => answer (Envelope.ofFault fault)
  | some (.error .endless) => pure .brokenDown
  | none => pure .brokenDown

/-- Answers the request on a line. -/
def serveLine (line : Text.Raw) : Session Ending :=
  match lineText line with
  | .error fault => pure (.failed fault)
  | .ok none => answer (Envelope.ofFault (.requestShape "No function call request received."))
  | .ok (some text) =>
    match Request.read? text with
    | some request => serveRequest request
    | none =>
      answer (Envelope.ofFault
        (.requestShape "Could not parse function call request: invalid JSON"))

/-- Reads a request and answers it. -/
def serve : Session Ending := do
  serveLine (← Session.readLine isBlankLine)

end Polyglot.Worker
