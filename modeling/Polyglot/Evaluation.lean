import Polyglot.Dispatch

/-!
# Evaluating calls

A call is evaluated by a worker that must be done within the time allowed. The calls that its worker
makes may in turn be evaluated in the same way, each of them to an envelope that is the reply, up to
`maxLevels` levels below the first call.
-/

namespace Polyglot

/-- How calls are evaluated. -/
structure Evaluator where
  /-- Where. -/
  site : Site
  /-- How long a call may take, in milliseconds. -/
  timeout : Nat

namespace Evaluator

/-- An envelope, and the milliseconds until it was there. -/
abbrev Timed := Json × Nat

/-- The milliseconds that it takes to start a worker. -/
def startTime : Nat := 1

/-- The envelope of an outcome, or that of the time having run out. -/
def inTime (timeout : Nat) (outcome : Dispatch.Outcome) : Timed :=
  match outcome.envelope with
  | some envelope =>
    let time := startTime + outcome.milliseconds
    if time < timeout then (envelope, time) else (Envelope.ofFault (.timeout timeout), timeout)
  | none => (Envelope.ofFault (.timeout timeout), timeout)

/-- Evaluates a call, the calls of its worker going to a channel. -/
def evaluateWith (e : Evaluator) (call : Json) (channel : Option Channel) : Timed :=
  match Dispatch.startFor e.site call with
  | .error fault => (Envelope.ofFault fault, 0)
  | .ok process => inTime e.timeout (Dispatch.run e.site call (some process) channel)

/-! ### Calls of workers -/

/-- How many levels below the first call others may be evaluated. -/
def maxLevels : Nat := 8

/-- The fault of a call that is too many levels below the first. -/
def tooDeep : Fault :=
  .process ("Reentrant calls nested deeper than " ++ toString maxLevels ++ " levels.")

/-- What follows a text at the start of a line, or else the line. -/
def withoutStart (start : List Char) (line : List Char) : List Char :=
  if start.isPrefixOf line then line.drop start.length else line

/-- The text of the call object on a line. -/
def callText (line : String) : String :=
  Text.trim (String.ofList (withoutStart ['c', 'a', 'l', 'l'] (Text.trim line).toList))

/-- The call that a line is for, with the definition of its function. -/
def callOfLine (resolve : Call.Resolver) (line : String) : Except Fault Json :=
  match Json.read? (callText line) with
  | some request => Call.expandWith resolve request
  | none => .error (.requestShape "Malformed reentrant call: invalid JSON")

/-- A channel that answers each call by its line alone. -/
def answering (answer : String → Timed) : Channel where
  refuses _ _ := none
  reply _ line :=
    let (envelope, time) := answer line
    some (envelope.render, time)

/-- The envelope that answers the call on a line, when calls may be evaluated on a number of levels. -/
def answerWith (e : Evaluator) (resolve : Call.Resolver) : (levels : Nat) → String → Timed
  | 0, _ => (Envelope.ofFault tooDeep, 0)
  | levels + 1, line =>
    match callOfLine resolve line with
    | .error fault => (Envelope.ofFault fault, 0)
    | .ok call => e.evaluateWith call (some (answering (answerWith e resolve levels)))

/-- The envelope that answers the call on a line of a function that is among the given ones. -/
def answer (e : Evaluator) (definitions : Call.Definitions) (levels : Nat) (line : String) : Timed :=
  e.answerWith definitions.find? levels line

/-- The channel of a first call. -/
def channel (e : Evaluator) (definitions : Call.Definitions) : Channel :=
  answering (e.answer definitions maxLevels)

/-- The envelope of a call. Without definitions its worker may not call back. -/
def evaluate (e : Evaluator) (call : Json) (definitions : Option Call.Definitions) : Json :=
  (e.evaluateWith call (definitions.map e.channel)).1

end Evaluator

end Polyglot
