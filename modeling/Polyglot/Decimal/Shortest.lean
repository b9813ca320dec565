import Polyglot.Decimal.Double

/-!
# The shortest decimal digits of a double

Of the decimal numbers that round to a given double, those with the fewest digits, and of these the
nearest to it; a tie goes to the even digit. The numbers that round to a double form an interval,
which holds its ends exactly when the significand is even. If it holds a point of the grid of
`n`-digit numbers then it holds one of the two that are next to the double, so for each count of
digits it is enough to look at these two.
-/

namespace Polyglot.Decimal

/-- Decimal digits and the power of ten of the first of them: `d.ddd · 10 ^ exponent`. -/
structure Scientific where
  /-- The digits, none of them a trailing zero unless it is the only one. -/
  digits : List Char
  /-- The power of ten of the first digit. -/
  exponent : Int
  deriving DecidableEq, Repr

/-- The numbers between two ends, as fractions of one denominator. -/
structure Span where
  /-- Numerator of the lower end. -/
  low : Nat
  /-- Numerator of the number inside. -/
  value : Nat
  /-- Numerator of the upper end. -/
  high : Nat
  /-- The common denominator. -/
  den : Nat
  /-- Whether the ends belong to the interval. -/
  closed : Bool

namespace Span

/-- The positive reals that round to a positive double. -/
def ofDouble (x : Double) : Span :=
  let m := x.significand
  let low := if m = Double.leastNormal ∧ Double.minExponent < x.exponent then 4 * m - 1 else 4 * m - 2
  let closed := m % 2 == 0
  if 0 ≤ x.exponent then
    let s := Nat.pow 2 x.exponent.toNat
    ⟨low * s, 4 * m * s, (4 * m + 2) * s, 4, closed⟩
  else ⟨low, 4 * m, 4 * m + 2, 4 * Nat.pow 2 (-x.exponent).toNat, closed⟩

/-- Whether the fraction `num / den` lies in the interval. -/
def holds (s : Span) (num den : Nat) : Bool :=
  let n := num * s.den
  if s.closed then s.low * den ≤ n && n ≤ s.high * den else s.low * den < n && n < s.high * den

end Span

/-- The power of ten that a positive fraction lies at or next above. -/
def decade (num den : Nat) : Int :=
  let guess : Int := ((digits num).length : Int) - ((digits den).length : Int)
  let below : Bool :=
    if 0 ≤ guess then num < den * Nat.pow 10 guess.toNat
    else num * Nat.pow 10 (-guess).toNat < den
  if below then guess - 1 else guess

/-- The multiple of `10 ^ place` that is the best of the two next to the number, if one of them lies
in the interval: the multiplier. -/
def nearestMultiple? (s : Span) (place : Int) : Option Nat :=
  let up := if 0 ≤ place then Nat.pow 10 place.toNat else 1
  let down := if 0 ≤ place then 1 else Nat.pow 10 (-place).toNat
  let num := s.value * down
  let den := s.den * up
  let q := num / den
  let below := s.holds (q * up) down
  let above := s.holds ((q + 1) * up) down
  if below && above then some (roundHalfEven num den)
  else if below then some q
  else if above then some (q + 1)
  else none

/-- The digits of a number without the zeros at their end. -/
def significantDigits (n : Nat) : List Char :=
  ((digits n).reverse.dropWhile (· == '0')).reverse

/-- The digits found on the first of the given grids that has any; `count` is the number of digits
that the next grid allows. -/
def shortestFrom (s : Span) (top : Int) : (fuel count : Nat) → Scientific
  | 0, _ => ⟨['0'], 0⟩
  | fuel + 1, count =>
    let place := top + 1 - count
    match nearestMultiple? s place with
    | some n => ⟨significantDigits n, place + (digits n).length - 1⟩
    | none => shortestFrom s top fuel (count + 1)

/-- The shortest digits of a double, without its sign. -/
def shortest (x : Double) : Scientific :=
  if x.significand = 0 then ⟨['0'], 0⟩
  else
    let s := Span.ofDouble x
    shortestFrom s (decade s.value s.den) 17 1

/-- How a double is written in decimal. -/
structure DoubleFormat where
  /-- The least power of ten of the first digit that is written positionally. -/
  leastPositional : Int
  /-- The largest power of ten of the first digit that is written positionally. -/
  largestPositional : Int

/-- The digits with the point after as many of them as the exponent says, and at least one digit on
either side of it. -/
def positional (s : Scientific) : List Char :=
  if 0 ≤ s.exponent then
    let count := s.exponent.toNat + 1
    let whole := s.digits.take count
    let rest := s.digits.drop count
    whole ++ List.replicate (count - whole.length) '0' ++ '.' :: (if rest = [] then ['0'] else rest)
  else '0' :: '.' :: (List.replicate ((-s.exponent).toNat - 1) '0' ++ s.digits)

/-- The digits with the point after the first, and the exponent with its sign. -/
def exponential (s : Scientific) : List Char :=
  let mantissa := match s.digits with
    | [] => []
    | [d] => [d]
    | d :: rest => d :: '.' :: rest
  let sign := if s.exponent < 0 then '-' else '+'
  mantissa ++ 'e' :: sign :: digits s.exponent.natAbs

/-- A double in decimal. -/
def DoubleFormat.render (format : DoubleFormat) (x : Double) : List Char :=
  let s := shortest x
  let body := if format.leastPositional ≤ s.exponent ∧ s.exponent ≤ format.largestPositional
    then positional s else exponential s
  if x.negative then '-' :: body else body

end Polyglot.Decimal
