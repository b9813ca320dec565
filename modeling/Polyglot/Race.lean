import Polyglot.Evaluation
import Polyglot.Guard

/-!
# The race for an answer

A call is evaluated by two parties.  The runner exchanges lines with the worker until there is an
envelope, or for ever; the asker waits for the envelope, but no longer than a timer lets it.  Who claims
the `Guard` first decides the answer: it is the envelope that the runner then puts into a slot, or that
of the time having run out.  Both parties hold the worker.  The asker terminates it before it returns,
the runner does when a call of the worker is refused, and so does whoever lets go of it last.

`Race.Step` says what may happen next, and `Race.Run` is any sequence of such acts.
-/

namespace Polyglot

namespace Race

/-- How far the party has come that exchanges lines with the worker. -/
inductive Runner where
  /-- The exchange goes on. -/
  | running
  /-- The exchange has led to an envelope. -/
  | ran (envelope : Json)
  /-- It may answer, but its envelope is not in the slot yet. -/
  | granted (envelope : Json)
  /-- It is done but for the worker, which it holds. -/
  | leaving
  /-- It has let go of the worker, and puts nothing into the slot any more. -/
  | gone

/-- How far the party has come that waits for the envelope. -/
inductive Asker where
  /-- It waits until the timer ends that. -/
  | waiting
  /-- It has waited in vain. -/
  | late
  /-- It waits for the envelope of the runner, which may answer. -/
  | waitingOn
  /-- It has its envelope, and the worker is not terminated by it yet. -/
  | answering (envelope : Json)
  /-- It has terminated the worker, which it holds. -/
  | leaving (envelope : Json)
  /-- It has returned the envelope. -/
  | returned (envelope : Json)

/-- Whether the runner has let go of the worker. -/
def Runner.isGone : Runner → Bool
  | gone => true
  | _ => false

/-- Whether the asker has let go of the worker. -/
def Asker.hasReturned : Asker → Bool
  | returned _ => true
  | _ => false

end Race

/-- The two parties and what they share. -/
structure Race where
  /-- The right to answer. -/
  guard : Guard
  /-- The envelope that the runner has handed over, until the asker takes it. -/
  slot : Option Json
  /-- The worker. -/
  worker : WorkerProcess
  /-- Whether the time has run out. -/
  expired : Bool
  /-- The runner. -/
  runner : Race.Runner
  /-- The asker. -/
  asker : Race.Asker

namespace Race

/-- What the parties do, with what comes of it. -/
inductive Act where
  /-- The runner and the worker exchange something. -/
  | exchanged
  /-- The runner terminates the worker, a call of which was refused; whether that sent the signal. -/
  | refused (signalled : Bool)
  /-- The runner has an envelope. -/
  | ran (envelope : Json)
  /-- The runner claims the right to answer with its envelope; whether it is granted. -/
  | runnerClaimed (envelope : Json) (granted : Bool)
  /-- The runner puts its envelope into the slot. -/
  | handedOver
  /-- The runner lets go of the worker; whether that sent the signal. -/
  | runnerLeft (signalled : Bool)
  /-- The time runs out. -/
  | expired
  /-- The asker stops waiting. -/
  | waitEnded
  /-- The asker claims the right to answer; whether it is granted. -/
  | askerClaimed (granted : Bool)
  /-- The asker takes the envelope from the slot. -/
  | received
  /-- The asker finds that the runner is gone and the slot is empty. -/
  | abandoned
  /-- The asker terminates the worker; whether that sent the signal. -/
  | terminated (signalled : Bool)
  /-- The asker lets go of the worker and returns an envelope; whether that sent the signal. -/
  | returned (envelope : Json) (signalled : Bool)

/-- The race after a worker has been started. -/
def start (worker : WorkerProcess) : Race where
  guard := .unclaimed
  slot := none
  worker := worker
  expired := false
  runner := .running
  asker := .waiting

/-- The envelope of the time having run out. -/
def timeoutEnvelope (timeout : Nat) : Json := Envelope.ofFault (.timeout timeout)

/-- Whether nothing can come through the slot any more. -/
def IsAbandoned (r : Race) : Prop := r.runner = .gone ∧ r.slot = none

/-- Lets go of a worker, which terminates it if nobody else holds it; tells whether that sent the
signal. -/
def letGo (worker : WorkerProcess) (last : Bool) : Bool × WorkerProcess :=
  if last then worker.terminate else (false, worker)

/-- What may happen next. -/
inductive Step (timeout : Nat) (r : Race) : Act → Race → Prop where
  /-- What the exchange does to the worker, apart from terminating it. -/
  | exchange (worker : WorkerProcess) (h : r.runner = .running)
    (hworker : worker.terminated = r.worker.terminated) :
    Step timeout r .exchanged { r with worker := worker }
  /-- A call of the worker is refused. -/
  | refuse (h : r.runner = .running) :
    Step timeout r (.refused r.worker.terminate.1) { r with worker := r.worker.terminate.2 }
  /-- The exchange ends. -/
  | run (envelope : Json) (h : r.runner = .running) :
    Step timeout r (.ran envelope) { r with runner := .ran envelope }
  /-- The runner claims the right to answer. -/
  | runnerClaim (envelope : Json) (h : r.runner = .ran envelope) :
    Step timeout r (.runnerClaimed envelope r.guard.claim.1)
      { r with
        guard := r.guard.claim.2
        runner := if r.guard.claim.1 then .granted envelope else .leaving }
  /-- The runner answers. -/
  | handOver (envelope : Json) (h : r.runner = .granted envelope) :
    Step timeout r .handedOver { r with slot := some envelope, runner := .leaving }
  /-- The runner is done. -/
  | runnerLeave (h : r.runner = .leaving) :
    Step timeout r (.runnerLeft (letGo r.worker r.asker.hasReturned).1)
      { r with worker := (letGo r.worker r.asker.hasReturned).2, runner := .gone }
  /-- The time runs out. -/
  | expire : Step timeout r .expired { r with expired := true }
  /-- The asker has waited for too long, or for a runner that is gone. -/
  | endWait (h : r.asker = .waiting) (hend : r.expired = true ∨ r.IsAbandoned) :
    Step timeout r .waitEnded { r with asker := .late }
  /-- The asker claims the right to answer; if it is too late for that it waits on. -/
  | askerClaim (h : r.asker = .late) :
    Step timeout r (.askerClaimed r.guard.claim.1)
      { r with
        guard := r.guard.claim.2
        asker := if r.guard.claim.1 then .answering (timeoutEnvelope timeout) else .waitingOn }
  /-- The asker takes the envelope of the runner. -/
  | receive (envelope : Json) (h : r.asker = .waiting ∨ r.asker = .waitingOn)
    (hslot : r.slot = some envelope) :
    Step timeout r .received { r with slot := none, asker := .answering envelope }
  /-- The asker gives up on a runner that is gone. -/
  | giveUp (h : r.asker = .waitingOn) (hgone : r.IsAbandoned) :
    Step timeout r .abandoned { r with asker := .answering (timeoutEnvelope timeout) }
  /-- The asker terminates the worker. -/
  | terminate (envelope : Json) (h : r.asker = .answering envelope) :
    Step timeout r (.terminated r.worker.terminate.1)
      { r with worker := r.worker.terminate.2, asker := .leaving envelope }
  /-- The asker returns. -/
  | return (envelope : Json) (h : r.asker = .leaving envelope) :
    Step timeout r (.returned envelope (letGo r.worker r.runner.isGone).1)
      { r with
        worker := (letGo r.worker r.runner.isGone).2
        asker := .returned envelope }

/-- What may happen one after another. -/
inductive Run (timeout : Nat) : Race → List Act → Race → Prop where
  /-- Nothing. -/
  | nil (r : Race) : Run timeout r [] r
  /-- One thing, and then others. -/
  | cons {r mid last : Race} {act : Act} {acts : List Act} (step : Step timeout r act mid)
    (rest : Run timeout mid acts last) : Run timeout r (act :: acts) last

/-! ### What has been done -/

/-- A right to answer that is granted: to the runner, with its envelope, or to the asker. -/
def Act.grant? : Act → Option (Option Json)
  | runnerClaimed envelope true => some (some envelope)
  | askerClaimed true => some none
  | _ => none

/-- The envelope that the runner has got. -/
def Act.ran? : Act → Option Json
  | ran envelope => some envelope
  | _ => none

/-- The envelope that is returned. -/
def Act.returned? : Act → Option Json
  | returned envelope _ => some envelope
  | _ => none

/-- Whether the signal is sent that ends the worker. -/
def Act.isSignal : Act → Bool
  | refused signalled | runnerLeft signalled | terminated signalled | returned _ signalled =>
    signalled
  | _ => false

end Race

end Polyglot
