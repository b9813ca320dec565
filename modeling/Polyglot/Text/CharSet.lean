/-!
# Sets of characters

A set of characters is written as the ranges of its code points, both ends included, in ascending
order. The modules beside this one hold the sets that the text formats of this library ask for.
-/

namespace Polyglot.Text

/-- A set of characters, as ascending ranges of code points with both ends included. -/
structure CharSet where
  /-- The ranges. -/
  ranges : List (Nat × Nat)

/-- Whether a character is in the set. -/
def CharSet.contains (set : CharSet) (c : Char) : Bool :=
  set.ranges.any fun (first, last) => first ≤ c.toNat && c.toNat ≤ last

/-- A character is in a set exactly when its code point is in one of the ranges. -/
theorem CharSet.contains_iff {set : CharSet} {c : Char} :
    set.contains c = true ↔ ∃ r ∈ set.ranges, r.1 ≤ c.toNat ∧ c.toNat ≤ r.2 := by
  simp [CharSet.contains, List.any_eq_true]

end Polyglot.Text
