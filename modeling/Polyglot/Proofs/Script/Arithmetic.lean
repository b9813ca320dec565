import Mathlib.Data.Rat.Floor
import Polyglot.Proofs.Request.Binding
import Polyglot.Proofs.Script.Lexemes
import Polyglot.Script.Datum.Operators

/-!
# Integers in scripts

Sums, differences, products and opposites of integers are exact: the number itself if it has 64 bits
(`Fits`), and the error for an overflow if it does not (`checked_exact`).

* `truncate_div`: the quotient is the fraction without its digits after the point.
* `fits_tdiv_iff`: of two integers of 64 bits, only the quotient of the least one and `-1` does not
  fit.
* `remainder_of_fits`, `remainder_of_not_fits`: the remainder is the one that goes with the quotient.
  Where the quotient does not fit there is none, although the remainder would be zero.
* `toInt_intText`: the text of an integer is read back as the integer.

The main statement is `integers_are_exact`.
-/

namespace Polyglot.Script

open Polyglot.Json Polyglot.Request

namespace Datum

/-! ### Integers of 64 bits -/

/-- Whether a number is an integer of 64 bits. -/
def Fits (n : Int) : Prop := ∃ w : Int64, w.toInt = n

theorem int64_ne_zero {w : Int64} (h : w ≠ 0) : w.toInt ≠ 0 := by
  rwa [Ne, ← Int64.toInt_zero, Int64.toInt_inj]

theorem fits_toInt (w : Int64) : Fits w.toInt := ⟨w, rfl⟩

theorem fits_iff {n : Int} : Fits n ↔ Text.minInt64 ≤ n ∧ n ≤ Text.maxInt64 := by
  unfold Fits Text.minInt64 Text.maxInt64
  constructor
  · rintro ⟨w, rfl⟩
    have hlow := Int64.le_toInt w
    have hhigh := Int64.toInt_lt w
    omega
  · intro h
    exact ⟨Int64.ofInt n, Int64.toInt_ofInt_of_le (by omega) (by omega)⟩

/-- Whether an operation fails with a message. -/
def FailsWith (result : Except RuntimeError Datum) (message : String) : Prop :=
  ∃ error : RuntimeError, result = .error error ∧ error.message = message

/-- Whether the result of an operation is a number if that fits into 64 bits, and the error for an
overflow if it does not. -/
def IsExactly (result : Except RuntimeError Datum) (n : Int) : Prop :=
  (Fits n → result = .ok (int n)) ∧ (¬Fits n → FailsWith result "RangeError: integer overflow")

theorem failsWith_overflow : FailsWith (.error .overflow) "RangeError: integer overflow" :=
  ⟨.overflow, rfl, rfl⟩

theorem checked_of_fits {n : Int} (h : Fits n) : checked n = .ok (int n) := by
  unfold checked
  rw [if_pos (fits_iff.mp h)]

theorem checked_of_not_fits {n : Int} (h : ¬Fits n) : checked n = .error .overflow := by
  unfold checked
  rw [if_neg (fun hrange => h (fits_iff.mpr hrange))]

theorem checked_exact (n : Int) : IsExactly (checked n) n := by
  refine ⟨checked_of_fits, fun h => ?_⟩
  rw [checked_of_not_fits h]
  exact failsWith_overflow

/-! ### Quotients -/

/-- A fraction without its digits after the point. -/
def truncate (x : ℚ) : Int := if 0 ≤ x then ⌊x⌋ else ⌈x⌉

theorem truncate_neg (x : ℚ) : truncate (-x) = -truncate x := by
  unfold truncate
  rcases lt_trichotomy x 0 with h | rfl | h
  · rw [if_pos (by linarith), if_neg (by linarith), Int.floor_neg]
  · simp
  · rw [if_neg (by linarith), if_pos h.le, Int.ceil_neg]

theorem truncate_natCast_div (m n : Nat) : truncate ((m : ℚ) / n) = (m : Int).tdiv n := by
  unfold truncate
  rw [if_pos (by positivity), Rat.floor_natCast_div_natCast,
    Int.tdiv_eq_ediv_of_nonneg (Int.natCast_nonneg m)]

/-- The quotient is the fraction without its digits after the point. -/
theorem truncate_div (a b : Int) : truncate ((a : ℚ) / b) = a.tdiv b := by
  obtain ⟨m, rfl | rfl⟩ := a.eq_nat_or_neg <;> obtain ⟨n, rfl | rfl⟩ := b.eq_nat_or_neg
  · simp only [Int.cast_natCast, truncate_natCast_div]
  · simp only [Int.cast_neg, Int.cast_natCast, div_neg, truncate_neg, truncate_natCast_div,
      Int.tdiv_neg]
  · simp only [Int.cast_neg, Int.cast_natCast, neg_div, truncate_neg, truncate_natCast_div,
      Int.neg_tdiv]
  · simp only [Int.cast_neg, Int.cast_natCast, neg_div_neg_eq, truncate_natCast_div, Int.tdiv_neg,
      Int.neg_tdiv, neg_neg]

/-- Only the quotient of the least integer and `-1` has more than 64 bits. -/
theorem fits_tdiv_iff (a b : Int64) :
    Fits (a.toInt.tdiv b.toInt) ↔ ¬(a = Int64.minValue ∧ b = -1) := by
  have hlow := Int64.le_toInt a
  have hhigh := Int64.toInt_lt a
  have hsize := Int.natAbs_tdiv a.toInt b.toInt
  have hminus : (-1 : Int64).toInt = -1 := rfl
  rw [fits_iff, ← Int64.toInt_inj, ← Int64.toInt_inj, Int64.toInt_minValue, hminus]
  unfold Text.minInt64 Text.maxInt64
  constructor
  · rintro ⟨_, hquotient⟩ ⟨ha, hb⟩
    rw [ha, hb] at hquotient
    exact absurd hquotient (by decide)
  · intro hne
    -- A divisor of size one leaves the size as it is, and any other at least halves it.
    by_cases hone : b.toInt.natAbs = 1
    · obtain hb | hb := Int.natAbs_eq_iff.mp hone
      · rw [hb, Nat.cast_one, Int.tdiv_one]
        omega
      · rw [hb, Nat.cast_one, Int.tdiv_neg, Int.tdiv_one]
        omega
    · have hhalf : a.toInt.natAbs / b.toInt.natAbs ≤ a.toInt.natAbs / 2 := by
        by_cases hzero : b.toInt.natAbs = 0
        · rw [hzero, Nat.div_zero]
          exact Nat.zero_le _
        · exact Nat.div_le_div_left (by omega) (by decide)
      change _ = a.toInt.natAbs / b.toInt.natAbs at hsize
      omega

theorem fits_tmod (a b : Int64) (hb : b ≠ 0) : Fits (a.toInt.tmod b.toInt) := by
  have hlow := Int64.le_toInt b
  have hhigh := Int64.toInt_lt b
  have hsize := Int.natAbs_tmod a.toInt b.toInt
  have hzero : b.toInt ≠ 0 := int64_ne_zero hb
  have hlt : a.toInt.natAbs % b.toInt.natAbs < b.toInt.natAbs := Nat.mod_lt _ (by omega)
  rw [fits_iff]
  unfold Text.minInt64 Text.maxInt64
  omega

theorem quotient_exact {a b : Int} (hb : b ≠ 0) :
    IsExactly (quotient a b) (truncate ((a : ℚ) / b)) := by
  unfold quotient
  rw [if_neg hb, truncate_div]
  exact checked_exact _

/-- The remainder is what the product of divisor and quotient lacks. -/
theorem remainder_of_fits {a b : Int64} (hb : b ≠ 0) (h : Fits (a.toInt.tdiv b.toInt)) :
    remainder a.toInt b.toInt = .ok (int (a.toInt - b.toInt * a.toInt.tdiv b.toInt)) := by
  have hzero : b.toInt ≠ 0 := int64_ne_zero hb
  unfold remainder quotient
  rw [if_neg hzero, checked_of_fits h, checked_of_fits (fits_tmod a b hb), Int.tmod_def]
  rfl

/-- There is no remainder without a quotient. -/
theorem remainder_of_not_fits {a b : Int} (hb : b ≠ 0) (h : ¬Fits (a.tdiv b)) :
    remainder a b = .error .overflow := by
  unfold remainder quotient
  rw [if_neg hb, checked_of_not_fits h]
  rfl

/-! ### Comparisons -/

/-- What the order of the integers says to a comparison. -/
def comparison? (op : BinaryOp) (a b : Int) : Option Bool :=
  match op with
  | .equal => some (a = b)
  | .notEqual => some (a ≠ b)
  | .less => some (a < b)
  | .lessEqual => some (a ≤ b)
  | .greater => some (a > b)
  | .greaterEqual => some (a ≥ b)
  | _ => none

/-- Comparisons agree with the order of the integers. -/
theorem binary_of_comparison {op : BinaryOp} {a b : Int} {answer : Bool}
    (h : comparison? op a b = some answer) : binary op (int a) (int b) = .ok (bool answer) := by
  have hequal : (int a).same (int b) = decide (a = b) := by rw [same, Bool.beq_eq_decide_eq]
  have hlt : (Ord.compare a b).isLT = decide (a < b) := by
    rw [Bool.eq_iff_iff, decide_eq_true_iff, Ordering.isLT_iff_eq_lt, compare_lt_iff_lt]
  have hle : (Ord.compare a b).isLE = decide (a ≤ b) := by
    rw [Bool.eq_iff_iff, decide_eq_true_iff, Std.isLE_compare]
  have hgt : (Ord.compare a b).isGT = decide (a > b) := by
    rw [Bool.eq_iff_iff, decide_eq_true_iff, Ordering.isGT_iff_eq_gt, compare_gt_iff_gt]
  have hge : (Ord.compare a b).isGE = decide (a ≥ b) := by
    rw [Bool.eq_iff_iff, decide_eq_true_iff, Std.isGE_compare]
  cases op <;> cases h <;>
    simp only [binary, compare, Except.map, hequal, hlt, hle, hgt, hge, decide_not]

/-! ### Texts of integers -/

theorem isBlank_of_mem_intChars {n : Int} {c : Char} (h : c ∈ Json.Number.intChars n) :
    Text.isBlank c = false := by
  have hdigits : ∀ c ∈ Decimal.digits n.natAbs, Text.isBlank c = false := by
    intro c hc
    refine Bool.eq_false_iff.mpr fun hblank => ?_
    have hnot := isDigit_of_isBlank hblank
    rw [isDigit_of_mem_digits hc] at hnot
    cases hnot
  unfold Json.Number.intChars at h
  split at h
  · obtain rfl | hc := List.mem_cons.mp h
    · decide
    · exact hdigits c hc
  · exact hdigits c h

theorem readInt_intChars {low high n : Int} (hlow : low ≤ n) (hhigh : n ≤ high) :
    Text.readInt low high (Json.Number.intChars n) = some n := by
  have hread := readDigits_digits n.natAbs
  unfold Json.Number.intChars
  split
  case isTrue hneg =>
    simp [Text.readInt, hread, abs_of_neg hneg, hlow, hhigh]
  case isFalse hneg =>
    -- The digits do not begin with a sign.
    obtain ⟨c, cs, hcs⟩ := List.exists_cons_of_ne_nil (digits_ne_nil n.natAbs)
    have hc : c.isDigit = true := isDigit_of_mem_digits (n := n.natAbs) (by simp [hcs])
    have hplus : c ≠ '+' := by
      rintro rfl
      exact absurd hc (by decide)
    have hminus : c ≠ '-' := by
      rintro rfl
      exact absurd hc (by decide)
    rw [hcs] at hread ⊢
    simp [Text.readInt, hplus, hminus, hread, abs_of_nonneg (not_lt.mp hneg), hlow, hhigh]

/-- The text of an integer is read back as the integer. -/
theorem toInt_intText (w : Int64) : toInt (text (intText w.toInt)) = .ok (int w.toInt) := by
  have htrim : Text.trimChars (Json.Number.intChars w.toInt) = Json.Number.intChars w.toInt :=
    Text.trimChars_eq_self fun _ hc => isBlank_of_mem_intChars hc
  have hrange := fits_iff.mp (fits_toInt w)
  simp only [toInt, intText, String.toList_ofList, htrim, readInt_intChars hrange.1 hrange.2]

/-! ### Exactness -/

/-- Integers of scripts are exact.  Sums, differences, products, opposites and quotients are the
numbers themselves, or the error for an overflow where they do not fit into 64 bits.  There is a
remainder wherever the quotient fits, which is everywhere but for the least integer and `-1`, and
nothing is divided by zero.  Comparisons agree with the order of the integers, and an integer is read
back from its text. -/
theorem integers_are_exact (a b : Int64) :
    IsExactly (binary .add (int a.toInt) (int b.toInt)) (a.toInt + b.toInt) ∧
    IsExactly (binary .sub (int a.toInt) (int b.toInt)) (a.toInt - b.toInt) ∧
    IsExactly (binary .mul (int a.toInt) (int b.toInt)) (a.toInt * b.toInt) ∧
    IsExactly (negate (int a.toInt)) (-a.toInt) ∧
    (b = 0 →
      FailsWith (binary .div (int a.toInt) (int b.toInt)) "RangeError: division by zero" ∧
      FailsWith (binary .rem (int a.toInt) (int b.toInt)) "RangeError: division by zero") ∧
    (b ≠ 0 → ∃ q : Int, q = truncate ((a.toInt : ℚ) / b.toInt) ∧
      IsExactly (binary .div (int a.toInt) (int b.toInt)) q ∧
      (Fits q → binary .rem (int a.toInt) (int b.toInt) = .ok (int (a.toInt - b.toInt * q))) ∧
      (¬Fits q →
        FailsWith (binary .rem (int a.toInt) (int b.toInt)) "RangeError: integer overflow") ∧
      (Fits q ↔ ¬(a = Int64.minValue ∧ b = -1)) ∧ Fits (a.toInt - b.toInt * q)) ∧
    binary .equal (int a.toInt) (int b.toInt) = .ok (bool (a.toInt = b.toInt)) ∧
    binary .notEqual (int a.toInt) (int b.toInt) = .ok (bool (a.toInt ≠ b.toInt)) ∧
    binary .less (int a.toInt) (int b.toInt) = .ok (bool (a.toInt < b.toInt)) ∧
    binary .lessEqual (int a.toInt) (int b.toInt) = .ok (bool (a.toInt ≤ b.toInt)) ∧
    binary .greater (int a.toInt) (int b.toInt) = .ok (bool (a.toInt > b.toInt)) ∧
    binary .greaterEqual (int a.toInt) (int b.toInt) = .ok (bool (a.toInt ≥ b.toInt)) ∧
    ∃ s, apply .str [int a.toInt] = .ok (text s) ∧ apply .int [text s] = .ok (int a.toInt) := by
  refine ⟨checked_exact _, checked_exact _, checked_exact _, checked_exact _, ?_, ?_,
    binary_of_comparison rfl, binary_of_comparison rfl, binary_of_comparison rfl,
    binary_of_comparison rfl, binary_of_comparison rfl, binary_of_comparison rfl,
    intText a.toInt, rfl, toInt_intText a⟩
  · rintro rfl
    exact ⟨⟨.divisionByZero, rfl, rfl⟩, ⟨.divisionByZero, rfl, rfl⟩⟩
  · intro hb
    have hzero : b.toInt ≠ 0 := int64_ne_zero hb
    refine ⟨_, rfl, quotient_exact hzero, ?_⟩
    rw [truncate_div]
    refine ⟨remainder_of_fits hb, fun h => ?_, fits_tdiv_iff a b, ?_⟩
    · have hrem : binary .rem (int a.toInt) (int b.toInt) = .error .overflow :=
        remainder_of_not_fits hzero h
      rw [hrem]
      exact failsWith_overflow
    · rw [← Int.tmod_def]
      exact fits_tmod a b hb

/-- The remainder of the least integer and `-1` would be zero, which fits, but there is none. -/
theorem not_isExactly_remainder_least :
    ¬IsExactly (binary .rem (int Int64.minValue.toInt) (int (-1 : Int64).toInt))
      (Int64.minValue.toInt - (-1 : Int64).toInt *
        truncate ((Int64.minValue.toInt : ℚ) / (-1 : Int64).toInt)) := by
  intro hexact
  have hfits : Fits (Int64.minValue.toInt - (-1 : Int64).toInt *
      truncate ((Int64.minValue.toInt : ℚ) / (-1 : Int64).toInt)) := by
    rw [truncate_div, ← Int.tmod_def]
    exact fits_tmod _ _ (by decide)
  have hnone : binary .rem (int Int64.minValue.toInt) (int (-1 : Int64).toInt) = .error .overflow :=
    remainder_of_not_fits (by decide) (by rw [fits_tdiv_iff]; decide)
  rw [hexact.1 hfits] at hnone
  cases hnone

end Datum

end Polyglot.Script
