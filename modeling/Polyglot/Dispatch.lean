import Polyglot.Call
import Polyglot.Exchange.Play
import Polyglot.Resources

/-!
# Evaluating a call with a worker

`Dispatch.run` finds the executor for a call, starts a worker, hands it the request, and plays the
exchange to its end. Whatever happens, there is an envelope, to which it adds what the evaluation has used.
-/

namespace Polyglot

/-- What has been measured of an evaluation. -/
structure Measurement where
  /-- When it began. -/
  startTime : String
  /-- When it ended. -/
  endTime : String
  /-- What the evaluating process has used. -/
  own : Resources.Sample
  /-- What the worker has used. -/
  worker : Resources.Sample
  /-- The name of the machine. -/
  host : String

/-- Where calls are evaluated. -/
structure Site where
  /-- The files. -/
  files : FileTree
  /-- What the programs other than the worker do. -/
  programs : Launch.Programs
  /-- The executors. -/
  registry : Registry
  /-- What is measured. -/
  measurement : Measurement

namespace Dispatch

/-! ### Metadata -/

/-- What is reported of every evaluation, and how long it took. -/
def entries (m : Measurement) (milliseconds : Nat) : List (String × String) :=
  [("evaluationStartTime", m.startTime), ("evaluationEndTime", m.endTime),
    ("evaluationDuration", Resources.milliseconds (1000 * milliseconds)),
    ("evaluationCpuUsage", Resources.milliseconds m.own.cpu),
    ("evaluationMemoryUsage", Resources.mebibytes m.own.memory), ("evaluationHostname", m.host)]

/-- What is reported of a worker that has been measured. -/
def workerEntries (m : Measurement) : List (String × String) :=
  [("executionCpuUsage", Resources.milliseconds m.worker.cpu),
    ("executionMemoryUsage", Resources.mebibytes m.worker.memory)]

/-- An envelope with metadata added. -/
def attach (envelope : Json) (entries : List (String × String)) : Json :=
  entries.foldl (fun e (key, value) => Envelope.setMetadata e key (Wire.text value)) envelope

/-- An envelope with all that is reported. -/
def report (m : Measurement) (milliseconds : Nat) (sampled : Bool) (envelope : Json) : Json :=
  attach envelope (entries m milliseconds ++ if sampled then workerEntries m else [])

/-! ### Running a call -/

/-- Starts a worker for a call. -/
def startFor (site : Site) (call : Json) : Except Fault WorkerProcess := do
  let (i, e) ← Call.executor site.registry site.files call
  WorkerProcess.start site.programs site.files i.language e

/-- What a run has led to. -/
structure Outcome where
  /-- The envelope; none if the run never ends. -/
  envelope : Option Json
  /-- How long the run took, in milliseconds. -/
  milliseconds : Nat
  /-- The lines of the calls that were handed to the channel. -/
  forwarded : List String
  /-- The worker, if there is one. -/
  process : Option WorkerProcess

/-- The envelope of a result. -/
def envelopeOf : Except Fault Json → Json
  | .ok envelope => envelope
  | .error fault => Envelope.ofFault fault

/-- The outcome of a fault that comes before the exchange. -/
def failed (site : Site) (fault : Fault) (process : Option WorkerProcess) : Outcome where
  envelope := some (report site.measurement 0 false (Envelope.ofFault fault))
  milliseconds := 0
  forwarded := []
  process := process

/-- A process after an exchange with it. -/
def afterPlay (process : WorkerProcess) (play : Play) : WorkerProcess :=
  let p := { process with inputOpen := process.inputOpen && play.exchange.inputOpen }
  if play.exchange.terminated then p.terminate.2 else p

/-- What is reported of an exchange after some time; nothing if it has no result. -/
def reported (site : Site) (milliseconds : Nat) (x : Exchange) : Option Json :=
  x.result.map fun result => report site.measurement milliseconds x.sampled (envelopeOf result)

/-- The outcome of an exchange. -/
def finished (site : Site) (process : WorkerProcess) (play : Play) : Outcome where
  envelope := reported site play.now play.exchange
  milliseconds := play.now
  forwarded := play.exchange.forwarded
  process := some (afterPlay process play)

/-- The outcome of handing a request to a worker. -/
def exchange (site : Site) (call : Json) (process : WorkerProcess) (channel : Option Channel) : Outcome :=
  match Call.implementation call with
  | .error fault => failed site fault (some process)
  | .ok i =>
    let (outputFree, process) := process.take .output
    let (diagnosticsFree, process) := process.take .diagnostics
    if outputFree && diagnosticsFree then
      let process := (process.writeLine (Call.request call i).render).2
      finished site process (Play.run channel process.session (Play.start process.inbox))
    else failed site process.outputTaken (some process)

/-- Evaluates a call, with a worker that is there already or a new one. -/
def run (site : Site) (call : Json) (process : Option WorkerProcess) (channel : Option Channel) :
    Outcome :=
  match process with
  | some process => exchange site call process channel
  | none =>
    match startFor site call with
    | .ok process => exchange site call process channel
    | .error fault => failed site fault none

end Dispatch

end Polyglot
