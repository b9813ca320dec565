import Polyglot.Decimal.Shortest
import Polyglot.Text.Integer

/-!
# JSON numbers

A JSON number is an integer of 64 bits, signed or unsigned, or a finite double. A numeral with
neither point nor exponent is an integer when it fits and a double otherwise; minus zero is a
double. All other numerals are doubles.
-/

namespace Polyglot.Json

open Polyglot.Decimal (Double)

/-- A JSON number. -/
inductive Number where
  /-- An integer. -/
  | int (value : Int)
  /-- A finite floating-point number. -/
  | double (value : Double)
  deriving DecidableEq, Repr

namespace Number

/-- Whether two numbers are equal: integers and doubles never are, and the two zeros are. -/
def same : Number → Number → Bool
  | .int a, .int b => a == b
  | .double a, .double b => a.same b
  | _, _ => false

/-- Doubles stand positionally from `10 ^ -5` up to below `10 ^ 16`. -/
def doubleFormat : Decimal.DoubleFormat := ⟨-5, 15⟩

/-- The decimal form of an integer. -/
def intChars (n : Int) : List Char :=
  if n < 0 then '-' :: Decimal.digits n.natAbs else Decimal.digits n.natAbs

/-- The numeral of a number. -/
def toChars : Number → List Char
  | .int n => intChars n
  | .double x => doubleFormat.render x

end Number

/-- The parts of a numeral. -/
structure Numeral where
  /-- Whether a minus sign comes first. -/
  negative : Bool
  /-- The digits before the point. -/
  whole : List Nat
  /-- The digits after the point; empty when there is no point. -/
  fraction : List Nat
  /-- Whether the exponent is negative, and its digits. -/
  exponent : Option (Bool × List Nat)
  deriving DecidableEq, Repr

namespace Numeral

/-- The digits at the front of a text, and what follows them. -/
def digitSpan : List Char → List Nat × List Char
  | [] => ([], [])
  | c :: cs =>
    match Text.digitValue? c with
    | some d => let (ds, rest) := digitSpan cs; (d :: ds, rest)
    | none => ([], c :: cs)

/-- The digits before the point: a zero alone, or a digit that is not zero and more digits. -/
def scanWhole? (cs : List Char) : Option (List Nat × List Char) :=
  match cs with
  | '0' :: rest => some ([0], rest)
  | _ =>
    match digitSpan cs with
    | ([], _) => none
    | r => some r

/-- The digits after the point, if there is a point. -/
def scanFraction? : List Char → Option (List Nat × List Char)
  | '.' :: cs =>
    match digitSpan cs with
    | ([], _) => none
    | r => some r
  | cs => some ([], cs)

/-- The digits of an exponent, of which there is at least one. -/
def scanExponentDigits? (negative : Bool) (cs : List Char) :
    Option (Option (Bool × List Nat) × List Char) :=
  match digitSpan cs with
  | ([], _) => none
  | (ds, rest) => some (some (negative, ds), rest)

/-- The exponent, if there is one. -/
def scanExponent? (cs : List Char) : Option (Option (Bool × List Nat) × List Char) :=
  match cs with
  | c :: rest =>
    if c = 'e' ∨ c = 'E' then
      match rest with
      | '+' :: rest => scanExponentDigits? false rest
      | '-' :: rest => scanExponentDigits? true rest
      | rest => scanExponentDigits? false rest
    else some (none, cs)
  | [] => some (none, [])

/-- The numeral at the front of a text and what follows it; none if the text begins with no
numeral. -/
def scan? (cs : List Char) : Option (Numeral × List Char) := do
  let (negative, cs) := match cs with
    | '-' :: rest => (true, rest)
    | rest => (false, rest)
  let (whole, cs) ← scanWhole? cs
  let (fraction, cs) ← scanFraction? cs
  let (exponent, cs) ← scanExponent? cs
  pure (⟨negative, whole, fraction, exponent⟩, cs)

/-- Appends digits to a number while it stays within 64 bits, and counts those left out. -/
def accumulate (n : Nat) : List Nat → Nat × Nat
  | [] => (n, 0)
  | d :: ds =>
    if n * 10 + d ≤ Text.maxNat64 then accumulate (n * 10 + d) ds else (n, ds.length + 1)

/-- The number that digits write. -/
def valueOf (ds : List Nat) : Nat := ds.foldl (fun n d => n * 10 + d) 0

/-- The number that a numeral writes; none when it is out of the range of doubles. The significand
keeps as many digits as fit in 64 bits, and a double is that integer, rounded, then scaled by a
power of ten and rounded again. -/
def value? (n : Numeral) : Option Number :=
  let (significand, dropped) := accumulate 0 n.whole
  if dropped = 0 ∧ n.fraction = [] ∧ n.exponent = none then
    if !n.negative then some (.int significand)
    else if 0 < significand ∧ significand ≤ 0x8000000000000000 then some (.int (-(significand : Int)))
    else some (.double (Double.ofNat significand).neg)
  else
    let (significand, ignored) := accumulate significand n.fraction
    let places := n.fraction.length - ignored
    let exponent : Int := match n.exponent with
      | none => 0
      | some (negative, ds) => if negative then -(valueOf ds : Int) else valueOf ds
    let scaled := (Double.ofNat significand).scale? ((dropped : Int) - places + exponent)
    scaled.map fun x => .double (if n.negative then x.neg else x)

end Numeral

end Polyglot.Json
