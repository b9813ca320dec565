import Polyglot.Decimal.Rounding

/-!
# Doubles

The finite floating-point numbers of 64 bits, as a sign, a significand and a power of two. There is
one such triple for each number and sign of zero: the significand has 53 bits unless the exponent is
the least one. Every operation is the exact one followed by rounding to the nearest double, the even
significand of two that are equally near.
-/

namespace Polyglot.Decimal

/-- A finite floating-point number of 64 bits: `± significand · 2 ^ exponent`. -/
structure Double where
  /-- Whether the sign is minus. -/
  negative : Bool
  /-- Below `2 ^ 53`; at least `2 ^ 52` unless the exponent is the least one. -/
  significand : Nat
  /-- From `-1074` to `971`. -/
  exponent : Int
  deriving DecidableEq, Repr

namespace Double

/-- The least exponent of two. -/
def minExponent : Int := -1074

/-- The largest exponent of two. -/
def maxExponent : Int := 971

/-- The least significand of 53 bits. -/
def leastNormal : Nat := 0x10000000000000

/-- Zero with the given sign. -/
def zero (negative : Bool) : Double := ⟨negative, 0, minExponent⟩

/-- Whether two doubles are the same number; the sign of zero does not count. -/
def same (a b : Double) : Bool :=
  (a.significand == 0 && b.significand == 0) ||
    (a.negative == b.negative && a.significand == b.significand && a.exponent == b.exponent)

theorem same_iff {a b : Double} :
    same a b = true ↔ (a.significand = 0 ∧ b.significand = 0) ∨ a = b := by
  cases a; cases b; simp [same, and_assoc]

/-- The fraction that a double is, without its sign: numerator and denominator. -/
def fraction (x : Double) : Nat × Nat :=
  if 0 ≤ x.exponent then (x.significand * Nat.pow 2 x.exponent.toNat, 1)
  else (x.significand, Nat.pow 2 (-x.exponent).toNat)

/-- The exponent of the power of two that a positive fraction lies at or next above. -/
def binaryExponent (num den : Nat) : Int :=
  let guess : Int := (num.log2 : Int) - (den.log2 : Int)
  let below : Bool :=
    if 0 ≤ guess then num < den * Nat.pow 2 guess.toNat
    else num * Nat.pow 2 (-guess).toNat < den
  if below then guess - 1 else guess

/-- The double nearest to a positive fraction; none when that would be infinite. -/
def ofPositive? (negative : Bool) (num den : Nat) : Option Double :=
  let e := max minExponent (binaryExponent num den - 52)
  let m := if 0 ≤ e then roundHalfEven num (den * Nat.pow 2 e.toNat)
    else roundHalfEven (num * Nat.pow 2 (-e).toNat) den
  let (m, e) := if m = 2 * leastNormal then (leastNormal, e + 1) else (m, e)
  if maxExponent < e then none else some ⟨negative, m, e⟩

/-- The double nearest to a fraction with a sign; none when that would be infinite. -/
def ofFraction? (negative : Bool) (num den : Nat) : Option Double :=
  if num = 0 then some (zero negative) else ofPositive? negative num den

/-- The double nearest to a natural number; zero stands for a number too large for any. -/
def ofNat (n : Nat) : Double := (ofFraction? false n 1).getD (zero false)

/-- The double with the other sign. -/
def neg (x : Double) : Double := { x with negative := !x.negative }

/-- The product, rounded; none when it would be infinite. -/
def mul? (x y : Double) : Option Double :=
  let (a, b) := x.fraction
  let (c, d) := y.fraction
  ofFraction? (x.negative != y.negative) (a * c) (b * d)

/-- The quotient by a double that is not zero, rounded; none when it would be infinite. -/
def div? (x y : Double) : Option Double :=
  let (a, b) := x.fraction
  let (c, d) := y.fraction
  ofFraction? (x.negative != y.negative) (a * d) (b * c)

/-- The double nearest to a power of ten, the exponent being at most `308`. -/
def powerOfTen (k : Nat) : Double := ofNat (Nat.pow 10 k)

/-- The quotient by ten to the given power, in steps of at most `10 ^ 308`, each one rounded. -/
def shrink (x : Double) (k : Nat) : Double :=
  if k ≤ 308 then (x.div? (powerOfTen k)).getD x
  else if x.significand = 0 then x
  else shrink ((x.div? (powerOfTen 308)).getD x) (k - 308)
termination_by k

/-- The product with a power of ten, rounded at each step; none when it would be infinite. -/
def scale? (x : Double) (exponent : Int) : Option Double :=
  if exponent < 0 then some (x.shrink (-exponent).toNat)
  else if exponent ≤ 308 then x.mul? (powerOfTen exponent.toNat)
  else if x.significand = 0 then some x
  else none

end Double

end Polyglot.Decimal
