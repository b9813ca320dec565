import Polyglot.Envelope
import Polyglot.Worker.Service

/-!
# The exchange with a worker

Once a worker has its request, what happens is a sequence of events: lines on its two outputs, the ends
of these, and replies to its calls. `Exchange.step` says what is done on each event. A line that calls
another function is handed to a channel, if there is one; other lines are collected, and when the
output ends they are read as an envelope. The line that says `end` closes the worker's input.

Once there is a result, no event changes anything (`step_of_isSome`).
-/

namespace Polyglot

/-- What takes the calls of a worker; only the n-th call and its line count. -/
structure Channel where
  /-- The fault of a call that is not taken. -/
  refuses : Nat → String → Option Fault
  /-- The reply to a call that is taken, and the milliseconds until it comes; or no reply at all. -/
  reply : Nat → String → Option (String × Nat)

/-- An event of an exchange. -/
inductive Event where
  /-- The worker has written a line as its output. -/
  | output (line : String)
  /-- The output has ended. -/
  | outputEnd
  /-- The worker has written a line beside its output. -/
  | diagnostic (line : String)
  /-- What is written beside the output has ended. -/
  | diagnosticsEnd
  /-- There is a reply to a call. -/
  | reply (line : String)
  deriving DecidableEq, Repr

/-- How far an exchange has come. -/
structure Exchange where
  /-- The lines of calls that were handed to the channel, in order. -/
  forwarded : List String
  /-- The other lines of output, in order. -/
  payload : List String
  /-- The replies that were written to the worker, in order. -/
  sent : List String
  /-- Whether the worker's input is open. -/
  inputOpen : Bool
  /-- Whether it has been measured what the worker uses. -/
  sampled : Bool
  /-- Whether the worker has been terminated. -/
  terminated : Bool
  /-- The envelope, or the fault, that the exchange has led to. -/
  result : Option (Except Fault Json)

namespace Exchange

/-- The exchange before any event. -/
def start : Exchange where
  forwarded := []
  payload := []
  sent := []
  inputOpen := true
  sampled := false
  terminated := false
  result := none

/-- Whether a line is a call of another function. -/
def isCall (line : String) : Bool :=
  Worker.callMark.toList.isPrefixOf (Text.trimLeft line.toList)

/-- Whether a line says that no more input will be read. -/
def isEnd (line : String) : Bool := Text.trim line = Worker.endMark

/-- The fault of a worker that calls although nobody takes its calls. -/
def notReentrant : Fault := .process "Non-reentrant executor tried to call back."

/-- The text of all lines. -/
def joinLines (lines : List String) : String := String.intercalate "\n" lines

/-- The exchange after a call has been handed to a channel. -/
def forward (channel : Channel) (x : Exchange) (line : String) : Exchange :=
  { x with
    forwarded := x.forwarded ++ [line]
    result := (channel.refuses x.forwarded.length line).map Except.error }

/-- The exchange after a call that nobody takes: the worker is terminated. -/
def refuse (x : Exchange) : Exchange :=
  { x with terminated := true, inputOpen := false, result := some (.error notReentrant) }

/-- The exchange after a line of output. -/
def onOutput (channel : Option Channel) (x : Exchange) (line : String) : Exchange :=
  if isCall line then
    match channel with
    | some channel => x.forward channel (Text.trim line)
    | none => x.refuse
  else if Text.isBlankText line then x
  else { x with payload := x.payload ++ [line] }

/-- The exchange after an event, when there is no result yet. -/
def onEvent (channel : Option Channel) (x : Exchange) : Event → Exchange
  | .output line => x.onOutput channel line
  | .outputEnd =>
    { x with sampled := true, result := some (Envelope.parse (joinLines x.payload)) }
  | .diagnostic line => if isEnd line then { x with sampled := true, inputOpen := false } else x
  | .diagnosticsEnd => x
  | .reply line =>
    if x.inputOpen then
      { x with sent := x.sent ++ [String.ofList (Text.trimRight line.toList)] }
    else x

/-- The exchange after an event. -/
def step (channel : Option Channel) (x : Exchange) (event : Event) : Exchange :=
  if x.result.isSome then x else x.onEvent channel event

/-- Once there is a result, no event changes anything. -/
theorem step_of_isSome {channel : Option Channel} {x : Exchange} {event : Event}
    (h : x.result.isSome) : x.step channel event = x := by
  simp [step, h]

end Exchange

end Polyglot
