import Polyglot.Decimal.Double

/-!
# Resource usage

What an evaluation uses is reported as texts: times in whole milliseconds, and memory in mebibytes
with two decimal places.
-/

namespace Polyglot.Resources

/-- A time in whole milliseconds. -/
def milliseconds (microseconds : Nat) : String := toString (microseconds / 1000) ++ " ms"

/-- A size in mebibytes. It is computed with doubles, so a size of more than 53 bits is rounded
first. -/
def mebibytes (bytes : Nat) : String :=
  let (num, den) := (Decimal.Double.ofNat bytes).fraction
  Decimal.twoPlaces num (den * 1048576) ++ " MiB"

/-- What a process has used so far. -/
structure Sample where
  /-- The time of the processor, in microseconds. -/
  cpu : Nat
  /-- The memory, in bytes. -/
  memory : Nat

end Polyglot.Resources
