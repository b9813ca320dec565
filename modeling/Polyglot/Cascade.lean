import Polyglot.Evaluation

/-!
# Calls that lead to calls

The worker of a call may make other calls, the workers of these may make more, and all of them are
evaluated at the same time.  Every evaluation has a channel of its own for the calls of its worker, and
the channel knows on which level it is.  `Cascade.step` says what happens when a line is handed to a
channel and when an evaluation returns.  Which of this happens, and in which order, is up to the workers
and to the time that they take: any list of acts may happen.
-/

namespace Polyglot

/-- The call that a line is for, when it is handed to a channel on this level. -/
def Evaluator.prepare (resolve : Call.Resolver) (depth : Nat) (line : String) : Except Fault Json :=
  if maxLevels ≤ depth then .error tooDeep else callOfLine resolve line

/-- An evaluation, with the channel for the calls of its worker. -/
structure Evaluation where
  /-- The call. -/
  call : Json
  /-- The evaluation whose worker made the call, and which of its lines it was; none for a first
  call. -/
  caller : Option (Nat × Nat)
  /-- The level of the channel. -/
  depth : Nat
  /-- The lines that were handed to the channel, in order. -/
  lines : List String
  /-- The replies of the channel in order, each with the number of the line that it is for. -/
  replies : List (Nat × String)
  /-- The envelope that the evaluation has returned. -/
  envelope : Option Json

namespace Evaluation

/-- The evaluation of a call that has just been started. -/
def start (call : Json) (caller : Option (Nat × Nat)) (depth : Nat) : Evaluation where
  call := call
  caller := caller
  depth := depth
  lines := []
  replies := []
  envelope := none

/-- The evaluation after a line has been handed to its channel. -/
def take (e : Evaluation) (line : String) : Evaluation := { e with lines := e.lines ++ [line] }

/-- The evaluation after its channel has answered a line with an envelope. -/
def reply (e : Evaluation) (i : Nat) (envelope : Json) : Evaluation :=
  { e with replies := e.replies ++ [(i, envelope.render)] }

/-- The evaluation after its channel has answered the next line with a fault. -/
def refuse (e : Evaluation) (line : String) (fault : Fault) : Evaluation :=
  (e.take line).reply e.lines.length (Envelope.ofFault fault)

/-- The evaluation after it has returned an envelope. -/
def finish (e : Evaluation) (envelope : Json) : Evaluation := { e with envelope := some envelope }

/-- The replies to a line. -/
def repliesTo (e : Evaluation) (i : Nat) : List String :=
  (e.replies.filter fun reply => reply.1 = i).map (·.2)

end Evaluation

/-- Evaluations in the order in which they were started. -/
abbrev Cascade := List Evaluation

namespace Cascade

/-- What happens. -/
inductive Act where
  /-- A line is handed to the channel of an evaluation. -/
  | forwarded (evaluation : Nat) (line : String)
  /-- An evaluation returns an envelope. -/
  | returned (evaluation : Nat) (envelope : Json)

/-- The evaluation of a first call. -/
def start (call : Json) : Cascade := [.start call none 0]

/-- What comes of handing a line to the channel of an evaluation: a reply at once, or another
evaluation. -/
def forward (resolve : Call.Resolver) (t : Cascade) (k : Nat) (line : String) : Cascade :=
  match t[k]? with
  | none => t
  | some e =>
    match Evaluator.prepare resolve e.depth line with
    | .error fault => t.modify k (·.refuse line fault)
    | .ok call => t.modify k (·.take line) ++ [.start call (some (k, e.lines.length)) (e.depth + 1)]

/-- What comes of an evaluation that returns, which it does once: its envelope is the reply to the call,
unless this is a first call. -/
def finish (t : Cascade) (j : Nat) (envelope : Json) : Cascade :=
  match t[j]? with
  | none => t
  | some e =>
    if e.envelope.isSome then t
    else
      let t := t.modify j (·.finish envelope)
      match e.caller with
      | none => t
      | some (k, i) => t.modify k (·.reply i envelope)

/-- What comes of an act. -/
def step (resolve : Call.Resolver) (t : Cascade) : Act → Cascade
  | .forwarded k line => t.forward resolve k line
  | .returned j envelope => t.finish j envelope

/-- What comes of a first call and acts one after another. -/
def after (resolve : Call.Resolver) (call : Json) (acts : List Act) : Cascade :=
  acts.foldl (step resolve) (start call)

end Cascade

end Polyglot
