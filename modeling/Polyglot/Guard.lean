/-!
# Answering once

Several parties may want to answer a call. The first to claim the right to do so has it, and no other
has.
-/

namespace Polyglot

/-- Whether the right to answer has been claimed. -/
structure Guard where
  /-- It has. -/
  claimed : Bool
  deriving DecidableEq, Repr

namespace Guard

/-- Nobody has claimed the right yet. -/
def unclaimed : Guard := ⟨false⟩

/-- Claims the right, and tells whether that succeeds. -/
def claim (g : Guard) : Bool × Guard := (!g.claimed, ⟨true⟩)

/-- After a claim no other succeeds. -/
theorem claim_claim (g : Guard) : (g.claim.2).claim.1 = false := rfl

end Guard

end Polyglot
