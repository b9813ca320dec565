import Polyglot.Wire.Basic

/-!
# Faults

Everything that can keep an evaluation from yielding a value, with the message and the error type
that callers are told.
-/

namespace Polyglot

/-- Why an evaluation failed. -/
inductive Fault where
  /-- A stream failed. -/
  | io (detail : String)
  /-- The configuration is not usable. -/
  | config (detail : String)
  /-- The request lacks something or has a malformed key. -/
  | requestShape (detail : String)
  /-- Two keys are for the same argument. -/
  | competingKeys (detail : String)
  /-- No language, or no executor for it. -/
  | resolution (detail : String)
  /-- A worker could not be started or broke the protocol. -/
  | process (detail : String)
  /-- The output of a worker is no envelope. -/
  | payload (detail : String)
  /-- The implementation itself failed. -/
  | execution (detail : String)
  /-- A value could not be converted. -/
  | codec (cause : CodecError)
  /-- The time allowed ran out. -/
  | timeout (milliseconds : Nat)
  deriving DecidableEq, Repr

namespace Fault

/-- The message of a fault. -/
def message : Fault → String
  | io detail => "IO error: " ++ detail
  | config detail => "Configuration error: " ++ detail
  | requestShape detail => detail
  | competingKeys detail => detail
  | resolution detail => detail
  | process detail => detail
  | payload detail => detail
  | execution detail => detail
  | codec cause => cause.message
  | timeout ms => "Function evaluation timed out after " ++ toString ms ++ " ms"

/-- The error type of a request that is not well formed. -/
def notWellFormed : String := "Z502"

/-- The error type of a failed evaluation. -/
def evaluationFailed : String := "Z507"

/-- The error type of two keys for one argument. -/
def competing : String := "Z508"

/-- The error type of a language without an executor. -/
def languageNotSupported : String := "Z558"

/-- The error type of a fault. -/
def code : Fault → String
  | requestShape _ => notWellFormed
  | competingKeys _ => competing
  | resolution _ => languageNotSupported
  | _ => evaluationFailed

/-- Whether a fault is found before there is a worker. -/
def beforeSpawn : Fault → Bool
  | requestShape _ | competingKeys _ | resolution _ => true
  | _ => false

end Fault

end Polyglot
