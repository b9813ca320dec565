/-!
# Rounding a quotient

A quotient is rounded to the nearest natural number, the even one of two that are equally near, and
written with two decimal places.
-/

namespace Polyglot.Decimal

/-- The natural number nearest to `num / den`, the even one of two that are equally near. -/
def roundHalfEven (num den : Nat) : Nat :=
  let q := num / den
  let r := num % den
  if 2 * r < den then q else if den < 2 * r then q + 1 else q + q % 2

/-- The decimal digits of a natural number, the most significant first. -/
def digits (n : Nat) : List Char := Nat.toDigits 10 n

/-- A fraction with two decimal places, the last of them rounded to the nearest, a half to even. -/
def twoPlaces (num den : Nat) : String :=
  let hundredths := roundHalfEven (100 * num) den
  let cents := digits (hundredths % 100)
  String.ofList (digits (hundredths / 100) ++ '.' :: (List.replicate (2 - cents.length) '0' ++ cents))

end Polyglot.Decimal
