/-!
# Integers in text

Reading a decimal integer with an optional sign, between given bounds, and the bounds of 64 bits.
-/

namespace Polyglot.Text

/-- The value of a digit, from `'0'` to `'9'`. -/
def digitValue? (c : Char) : Option Nat :=
  if '0' ≤ c ∧ c ≤ '9' then some (c.toNat - '0'.toNat) else none

/-- The value of a hexadecimal digit, in either case. -/
def hexValue? (c : Char) : Option Nat :=
  if '0' ≤ c ∧ c ≤ '9' then some (c.toNat - '0'.toNat)
  else if 'a' ≤ c ∧ c ≤ 'f' then some (c.toNat - 'a'.toNat + 10)
  else if 'A' ≤ c ∧ c ≤ 'F' then some (c.toNat - 'A'.toNat + 10)
  else none

/-- The number that digits of a base write, of which there is at least one. -/
def readBase (base : Nat) (value? : Char → Option Nat) (cs : List Char) : Option Nat :=
  if cs = [] then none
  else cs.foldl (fun acc c => acc.bind fun n => (value? c).map (n * base + ·)) (some 0)

/-- Characters write a number if all of them are digits and there is at least one. -/
theorem readBase_eq_some_iff {base : Nat} {value? : Char → Option Nat} {cs : List Char} {n : Nat} :
    readBase base value? cs = some n ↔
      cs ≠ [] ∧ (∀ c ∈ cs, (value? c).isSome) ∧
        cs.foldl (fun n c => n * base + (value? c).getD 0) 0 = n := by
  -- The fold starts with nothing read, so its value is stated for any it starts with.
  have hfold : ∀ (cs : List Char) (m : Option Nat),
      cs.foldl (fun acc c => acc.bind fun n => (value? c).map (n * base + ·)) m = some n ↔
        ∃ k, m = some k ∧ (∀ c ∈ cs, (value? c).isSome) ∧
          cs.foldl (fun n c => n * base + (value? c).getD 0) k = n := by
    intro cs
    induction cs with
    | nil => simp
    | cons c cs ih =>
      intro m
      rw [List.foldl_cons, ih]
      cases hc : value? c <;> cases m <;> simp [hc]
  rw [readBase]
  split <;> simp_all

/-- The number written by decimal digits, of which there is at least one. -/
def readDigits (cs : List Char) : Option Nat := readBase 10 digitValue? cs

/-- The number written by hexadecimal digits, of which there is at least one. -/
def readHexDigits (cs : List Char) : Option Nat := readBase 16 hexValue? cs

/-- The integer from `low` to `high` that is written by an optional sign and decimal digits. -/
def readInt (low high : Int) (cs : List Char) : Option Int :=
  let value : Option Int :=
    match cs with
    | '+' :: digits => (readDigits digits).map (↑·)
    | '-' :: digits => (readDigits digits).map fun n => -(n : Int)
    | digits => (readDigits digits).map (↑·)
  value.filter fun n => low ≤ n && n ≤ high

/-- The natural number up to `high` that is written by an optional plus sign and decimal digits. -/
def readNat (high : Nat) (cs : List Char) : Option Nat :=
  let value : Option Nat :=
    match cs with
    | '+' :: digits => readDigits digits
    | digits => readDigits digits
  value.filter (· ≤ high)

/-- The largest natural number of 64 bits. -/
def maxNat64 : Nat := 0xFFFFFFFFFFFFFFFF

/-- The largest integer of 64 bits. -/
def maxInt64 : Int := 0x7FFFFFFFFFFFFFFF

/-- The smallest integer of 64 bits. -/
def minInt64 : Int := -0x8000000000000000

end Polyglot.Text
