import Mathlib.Tactic.Set
import Mathlib.Tactic.SplitIfs
import Polyglot.Json.Token

/-!
# Reading the numerals that are written

A number is written as a sign, digits, and perhaps a fraction and an exponent (`Spelling`).  The
scanner takes exactly such a spelling off the front of a text, whatever follows it, as long as that
does not go on with the numeral (`Numeral.scan?_chars`), and every number has a spelling
(`Number.exists_spelling`).  So a written number is always read as some number; `Number.reread?` is
which one.  Integers of 64 bits are read back as they were (`Number.reread?_int`).  A double need
not be, since a reader that rounds twice can miss the double that its shortest digits stand for.
-/

namespace Polyglot

open Polyglot.Text (digitValue?)

/-! ### Digits -/

/-- The values of decimal digits. -/
def digitValues (cs : List Char) : List Nat := cs.map fun c => c.toNat - '0'.toNat

/-- Whether a text does not begin with a digit. -/
def NoDigit (cs : List Char) : Prop := ∀ c ∈ cs.head?, digitValue? c = none

theorem noDigit_cons {c : Char} {cs : List Char} (h : digitValue? c = none) : NoDigit (c :: cs) := by
  rintro _ ⟨⟩
  exact h

theorem digitValue?_of_isDigit {c : Char} (h : c.isDigit = true) :
    digitValue? c = some (c.toNat - '0'.toNat) := by
  unfold digitValue?
  rw [if_pos]
  simp only [Char.isDigit, Bool.and_eq_true, decide_eq_true_eq] at h
  exact h

theorem isDigit_of_mem_digits {n : Nat} {c : Char} (h : c ∈ Decimal.digits n) :
    c.isDigit = true :=
  Nat.isDigit_of_mem_toDigits (by decide) (by decide) h

theorem digits_ne_nil (n : Nat) : Decimal.digits n ≠ [] := Nat.toDigits_ne_nil

/-- The first digit of a number that is not zero is not zero. -/
theorem exists_digits_eq_cons {n : Nat} (hn : n ≠ 0) :
    ∃ c cs, Decimal.digits n = c :: cs ∧ c ≠ '0' := by
  -- The digits of `n` are those of `n / 10` and one more, so its first digit is that of `n / 10`.
  induction n using Nat.strongRecOn with
  | _ n ih =>
    unfold Decimal.digits
    rcases Nat.lt_or_ge n 10 with h | h
    · exact ⟨_, [], Nat.toDigits_of_lt_base h, by simpa using hn⟩
    · obtain ⟨c, cs, hcs, hc⟩ := ih (n / 10) (by omega) (by omega)
      rw [Nat.toDigits_of_base_le (by decide) h]
      exact ⟨c, cs ++ [(n % 10).digitChar], by rw [← List.cons_append, ← hcs]; rfl, hc⟩

namespace Json.Numeral

theorem digitSpan_append {ds rest : List Char} (hd : ∀ c ∈ ds, c.isDigit = true)
    (hr : NoDigit rest) : digitSpan (ds ++ rest) = (digitValues ds, rest) := by
  induction ds with
  | nil =>
    cases rest with
    | nil => rfl
    | cons c cs => simp [digitSpan, hr c rfl, digitValues]
  | cons c ds ih =>
    have hc := digitValue?_of_isDigit (hd c (by simp))
    have hds := ih fun x hx => hd x (by simp [hx])
    simp [digitSpan, hc, hds, digitValues]

theorem valueOf_digits (n : Nat) : valueOf (digitValues (Decimal.digits n)) = n := by
  have h : Nat.ofDigitChars 10 (Decimal.digits n) 0 = n := Nat.ofDigitChars_ten_toDigits
  simp only [Nat.ofDigitChars] at h
  rw [valueOf, digitValues, List.foldl_map]
  simpa only [Nat.mul_comm _ 10] using h

theorem le_foldl_digits (n : Nat) (ds : List Nat) : n ≤ ds.foldl (fun n d => n * 10 + d) n := by
  induction ds generalizing n with
  | nil => exact Nat.le_refl n
  | cons d ds ih => exact Nat.le_trans (by omega) (ih (n * 10 + d))

/-- Nothing is left out of a number of 64 bits. -/
theorem accumulate_eq {n : Nat} {ds : List Nat}
    (h : ds.foldl (fun n d => n * 10 + d) n ≤ Text.maxNat64) :
    accumulate n ds = (ds.foldl (fun n d => n * 10 + d) n, 0) := by
  induction ds generalizing n with
  | nil => rfl
  | cons d ds ih =>
    -- The rest of the digits only makes the value larger, so this one is taken.
    have hd : n * 10 + d ≤ Text.maxNat64 := Nat.le_trans (le_foldl_digits _ ds) h
    rw [accumulate, if_pos hd, ih h]
    rfl

end Json.Numeral

/-! ### Spellings -/

namespace Json

/-- A numeral as it is written: its digits are still characters. -/
structure Spelling where
  /-- Whether a minus sign comes first. -/
  negative : Bool
  /-- The digits before the point. -/
  whole : List Char
  /-- The digits after the point; empty when there is no point. -/
  fraction : List Char
  /-- Whether the exponent is negative, and its digits. -/
  exponent : Option (Bool × List Char)

namespace Spelling

/-- The sign. -/
def signChars (negative : Bool) : List Char := if negative then ['-'] else []

/-- The point and what follows it. -/
def fractionChars (ds : List Char) : List Char := if ds = [] then [] else '.' :: ds

/-- The exponent with its sign. -/
def exponentChars : Option (Bool × List Char) → List Char
  | none => []
  | some (negative, ds) => 'e' :: (if negative then '-' else '+') :: ds

/-- The text of a spelling. -/
def chars (s : Spelling) : List Char :=
  signChars s.negative ++ (s.whole ++ (fractionChars s.fraction ++ exponentChars s.exponent))

/-- The numeral that a spelling stands for. -/
def numeral (s : Spelling) : Numeral where
  negative := s.negative
  whole := digitValues s.whole
  fraction := digitValues s.fraction
  exponent := s.exponent.map fun (negative, ds) => (negative, digitValues ds)

/-- The digits are digits, there is one before the point, which is zero only when it is alone, and
an exponent has one too. -/
structure WellFormed (s : Spelling) : Prop where
  whole_digit : ∀ c ∈ s.whole, c.isDigit = true
  whole_head : s.whole = ['0'] ∨ ∃ c cs, s.whole = c :: cs ∧ c ≠ '0'
  fraction_digit : ∀ c ∈ s.fraction, c.isDigit = true
  exponent_digit : ∀ e ∈ s.exponent, e.2 ≠ [] ∧ ∀ c ∈ e.2, c.isDigit = true

end Spelling

namespace Numeral

/-- Whether a text does not go on with a numeral that stands before it. -/
def Ends (cs : List Char) : Prop :=
  ∀ c ∈ cs.head?, digitValue? c = none ∧ c ≠ '.' ∧ c ≠ 'e' ∧ c ≠ 'E'

theorem ends_nil : Ends [] := by simp [Ends]

theorem Ends.noDigit {cs : List Char} (h : Ends cs) : NoDigit cs := fun c hc => (h c hc).1

theorem scanWhole?_append {whole rest : List Char} (hd : ∀ c ∈ whole, c.isDigit = true)
    (hh : whole = ['0'] ∨ ∃ c cs, whole = c :: cs ∧ c ≠ '0') (hr : NoDigit rest) :
    scanWhole? (whole ++ rest) = some (digitValues whole, rest) := by
  have hs := digitSpan_append hd hr
  rcases hh with rfl | ⟨c, cs, rfl, hc⟩
  · rfl
  · unfold scanWhole?
    split
    · rename_i heq
      rw [List.cons_append, List.cons.injEq] at heq
      exact absurd heq.1 hc
    · rw [hs]
      rfl

theorem scanFraction?_append {ds rest : List Char} (hd : ∀ c ∈ ds, c.isDigit = true)
    (hr : NoDigit rest) (hp : '.' ∉ rest.head?) :
    scanFraction? (Spelling.fractionChars ds ++ rest) = some (digitValues ds, rest) := by
  cases ds with
  | nil =>
    rw [Spelling.fractionChars, if_pos rfl, List.nil_append]
    unfold scanFraction?
    split
    · exact absurd rfl hp
    · rfl
  | cons c cs =>
    rw [Spelling.fractionChars, if_neg (List.cons_ne_nil c cs), List.cons_append, scanFraction?,
      digitSpan_append hd hr]
    rfl

theorem scanExponentDigits?_append (negative : Bool) {ds rest : List Char} (hne : ds ≠ [])
    (hd : ∀ c ∈ ds, c.isDigit = true) (hr : NoDigit rest) :
    scanExponentDigits? negative (ds ++ rest) = some (some (negative, digitValues ds), rest) := by
  obtain ⟨c, cs, rfl⟩ := List.exists_cons_of_ne_nil hne
  rw [scanExponentDigits?, digitSpan_append hd hr]
  rfl

theorem scanExponent?_append {e : Option (Bool × List Char)} {rest : List Char}
    (he : ∀ p ∈ e, p.2 ≠ [] ∧ ∀ c ∈ p.2, c.isDigit = true) (hr : Ends rest) :
    scanExponent? (Spelling.exponentChars e ++ rest) =
      some (e.map fun (negative, ds) => (negative, digitValues ds), rest) := by
  cases e with
  | none =>
    cases rest with
    | nil => rfl
    | cons c cs =>
      obtain ⟨-, -, h1, h2⟩ := hr c rfl
      simp [Spelling.exponentChars, scanExponent?, h1, h2]
  | some p =>
    obtain ⟨negative, ds⟩ := p
    obtain ⟨hne, hd⟩ := he _ rfl
    have hs := scanExponentDigits?_append negative hne hd hr.noDigit
    cases negative <;> simpa [Spelling.exponentChars, scanExponent?] using hs

/-- What follows the digits before the point is no digit. -/
theorem noDigit_tail (fraction : List Char) (e : Option (Bool × List Char)) {rest : List Char}
    (hr : Ends rest) :
    NoDigit (Spelling.fractionChars fraction ++ (Spelling.exponentChars e ++ rest)) := by
  unfold Spelling.fractionChars
  split_ifs with h
  · cases e with
    | none => exact hr.noDigit
    | some p => exact noDigit_cons (by decide)
  · exact noDigit_cons (by decide)

/-- The scanner takes a spelling off the front of a text that does not go on with it. -/
theorem scan?_chars {s : Spelling} (hs : s.WellFormed) {rest : List Char} (hr : Ends rest) :
    scan? (s.chars ++ rest) = some (s.numeral, rest) := by
  have hexp := scanExponent?_append hs.exponent_digit hr
  -- An `e` or the rest comes after the fraction, and neither goes on with it.
  have hpoint : NoDigit (Spelling.exponentChars s.exponent ++ rest) ∧
      '.' ∉ (Spelling.exponentChars s.exponent ++ rest).head? := by
    cases s.exponent with
    | none => exact ⟨hr.noDigit, fun h => (hr _ h).2.1 rfl⟩
    | some p => exact ⟨noDigit_cons (by decide), by simp [Spelling.exponentChars]⟩
  have hfrac := scanFraction?_append hs.fraction_digit hpoint.1 hpoint.2
  have hwhole := scanWhole?_append hs.whole_digit hs.whole_head
    (noDigit_tail s.fraction s.exponent hr)
  -- There is a digit first, so the scanner takes no sign that was not written.
  have hsign : s.whole ++ (Spelling.fractionChars s.fraction ++
      (Spelling.exponentChars s.exponent ++ rest)) ≠ [] ∧
      '-' ∉ (s.whole ++ (Spelling.fractionChars s.fraction ++
        (Spelling.exponentChars s.exponent ++ rest))).head? := by
    rcases hs.whole_head with h | ⟨c, cs, h, -⟩
    · simp [h]
    · have := hs.whole_digit c (by simp [h])
      rw [h]
      refine ⟨by simp, ?_⟩
      rintro ⟨⟩
      exact absurd this (by decide)
  unfold scan? Spelling.chars
  simp only [List.append_assoc]
  cases hneg : s.negative with
  | true =>
    simp only [Spelling.signChars, if_true, List.cons_append, List.nil_append]
    simp [hwhole, hfrac, hexp, Spelling.numeral, hneg]
  | false =>
    simp only [Spelling.signChars, Bool.false_eq_true, if_false, List.nil_append]
    split
    · rename_i heq
      rw [heq] at hsign
      simp at hsign
    · simp [hwhole, hfrac, hexp, Spelling.numeral, hneg]

end Numeral

/-! ### The spelling of a number -/

namespace Number

/-- The number that the numeral of a number is read as; none if it is out of the range of
doubles. -/
def reread? (n : Number) : Option Number := (Numeral.scan? n.toChars).bind fun r => r.1.value?

/-- The spelling of an integer. -/
def intSpelling (n : Int) : Spelling := ⟨decide (n < 0), Decimal.digits n.natAbs, [], none⟩

theorem chars_intSpelling (n : Int) : (intSpelling n).chars = intChars n := by
  by_cases h : n < 0 <;>
    simp [Spelling.chars, intSpelling, intChars, Spelling.signChars, Spelling.fractionChars,
      Spelling.exponentChars, h]

theorem wellFormed_intSpelling (n : Int) : (intSpelling n).WellFormed where
  whole_digit _ hc := isDigit_of_mem_digits hc
  whole_head := by
    by_cases h : n.natAbs = 0
    · exact .inl (by rw [intSpelling, h]; rfl)
    · exact .inr (exists_digits_eq_cons h)
  fraction_digit := by simp [intSpelling]
  exponent_digit := by simp [intSpelling]

end Number

end Json

/-! ### The spelling of a double -/

namespace Decimal

theorem Span.low_pos {x : Double} (hx : x.significand ≠ 0) : 0 < (Span.ofDouble x).low := by
  unfold Span.ofDouble
  dsimp only
  split_ifs <;> dsimp only
  · exact Nat.mul_pos (by omega) (Nat.pow_pos (by decide))
  · exact Nat.mul_pos (by omega) (Nat.pow_pos (by decide))
  · omega
  · omega

/-- Zero is not among the numbers that round to a positive double. -/
theorem Span.holds_zero {s : Span} (h : 0 < s.low) {den : Nat} (hd : 0 < den) :
    s.holds 0 den = false := by
  have hpos : 0 < s.low * den := Nat.mul_pos h hd
  unfold Span.holds
  dsimp only
  rw [Nat.zero_mul]
  split_ifs
  all_goals
    simp only [Bool.and_eq_false_imp, decide_eq_true_eq, decide_eq_false_iff_not]
    omega

theorem roundHalfEven_ne_zero {num den : Nat} (h : num / den ≠ 0) : roundHalfEven num den ≠ 0 := by
  unfold roundHalfEven
  dsimp only
  generalize num / den = q at h ⊢
  split_ifs <;> omega

theorem nearestMultiple?_ne_zero {s : Span} (h : 0 < s.low) {place : Int} {n : Nat}
    (hn : nearestMultiple? s place = some n) : n ≠ 0 := by
  unfold nearestMultiple? at hn
  dsimp only at hn
  set up := if 0 ≤ place then Nat.pow 10 place.toNat else 1
  set down := if 0 ≤ place then 1 else Nat.pow 10 (-place).toNat with hdown
  have hpos : 0 < down := by
    rw [hdown]
    split_ifs
    · exact Nat.one_pos
    · exact Nat.pow_pos (by decide)
  have hzero := Span.holds_zero h hpos
  set q := s.value * down / (s.den * up)
  -- The multiple below the number is in the interval only if it is not zero.
  have hq : s.holds (q * up) down = true → q ≠ 0 := by
    rintro hb hq
    rw [hq, Nat.zero_mul, hzero] at hb
    exact absurd hb (by decide)
  split_ifs at hn with h1 h2 h3
  · rw [Bool.and_eq_true] at h1
    rw [← Option.some.inj hn]
    exact roundHalfEven_ne_zero (hq h1.1)
  · rw [← Option.some.inj hn]
    exact hq h2
  · rw [← Option.some.inj hn]
    exact Nat.succ_ne_zero q

/-- What the digits of a double look like: a zero alone, or digits of which the first is not zero. -/
structure Scientific.WellShaped (s : Scientific) : Prop where
  digit : ∀ c ∈ s.digits, c.isDigit = true
  head : (s.digits = ['0'] ∧ s.exponent = 0) ∨ ∃ c cs, s.digits = c :: cs ∧ c ≠ '0'

theorem wellShaped_zero : Scientific.WellShaped ⟨['0'], 0⟩ := ⟨by simp, .inl ⟨rfl, rfl⟩⟩

theorem mem_significantDigits {n : Nat} {c : Char} (h : c ∈ significantDigits n) :
    c.isDigit = true := by
  have hsub : c ∈ (digits n).reverse :=
    (List.dropWhile_sublist (· == '0')).subset (List.mem_reverse.mp h)
  exact isDigit_of_mem_digits (List.mem_reverse.mp hsub)

theorem exists_significantDigits_eq_cons {n : Nat} (hn : n ≠ 0) :
    ∃ c cs, significantDigits n = c :: cs ∧ c ≠ '0' := by
  obtain ⟨c, cs, hcs, hc⟩ := exists_digits_eq_cons hn
  -- Zeros are dropped from the other end, and dropping them stops before the first digit.
  have hdrop : ∀ l : List Char, ∃ l', (l ++ [c]).dropWhile (· == '0') = l' ++ [c] := by
    intro l
    induction l with
    | nil => exact ⟨[], by simp [hc]⟩
    | cons d l ih =>
      by_cases hd : d = '0'
      · simpa [hd] using ih
      · exact ⟨d :: l, by simp [hd]⟩
  obtain ⟨l', hl'⟩ := hdrop cs.reverse
  refine ⟨c, l'.reverse, ?_, hc⟩
  rw [significantDigits, hcs, List.reverse_cons, hl', List.reverse_append]
  rfl

theorem wellShaped_shortestFrom {s : Span} (h : 0 < s.low) (top : Int) (fuel count : Nat) :
    (shortestFrom s top fuel count).WellShaped := by
  -- More and more digits are tried until some are in the interval.
  induction fuel generalizing count with
  | zero => exact wellShaped_zero
  | succ fuel ih =>
    unfold shortestFrom
    dsimp only
    split
    · rename_i n hn
      exact ⟨fun c hc => mem_significantDigits hc,
        .inr (exists_significantDigits_eq_cons (nearestMultiple?_ne_zero h hn))⟩
    · exact ih (count + 1)

theorem wellShaped_shortest (x : Double) : (shortest x).WellShaped := by
  unfold shortest
  split_ifs with h
  · exact wellShaped_zero
  · exact wellShaped_shortestFrom (Span.low_pos h) _ _ _

open Json (Spelling)

/-- The spelling of digits that stand positionally. -/
def positionalSpelling (negative : Bool) (s : Scientific) : Spelling :=
  if 0 ≤ s.exponent then
    let count := s.exponent.toNat + 1
    let whole := s.digits.take count
    let rest := s.digits.drop count
    ⟨negative, whole ++ List.replicate (count - whole.length) '0', if rest = [] then ['0'] else rest,
      none⟩
  else ⟨negative, ['0'], List.replicate ((-s.exponent).toNat - 1) '0' ++ s.digits, none⟩

/-- The spelling of digits with an exponent. -/
def exponentialSpelling (negative : Bool) (s : Scientific) : Spelling :=
  ⟨negative, s.digits.take 1, s.digits.drop 1,
    some (decide (s.exponent < 0), digits s.exponent.natAbs)⟩

/-- The spelling of a double. -/
def DoubleFormat.spelling (format : DoubleFormat) (x : Double) : Spelling :=
  let s := shortest x
  if format.leastPositional ≤ s.exponent ∧ s.exponent ≤ format.largestPositional
  then positionalSpelling x.negative s else exponentialSpelling x.negative s

theorem chars_positionalSpelling (negative : Bool) {s : Scientific} (hs : s.WellShaped) :
    (positionalSpelling negative s).chars = Spelling.signChars negative ++ positional s := by
  unfold positionalSpelling positional
  split_ifs with h
  -- There always is a point, with a zero after it at least.
  · have hne : ∀ l : List Char, Spelling.fractionChars (if l = [] then ['0'] else l) =
        '.' :: if l = [] then ['0'] else l := by
      intro l
      rw [Spelling.fractionChars, if_neg]
      split_ifs with hl
      · simp
      · exact hl
    rw [Spelling.chars, hne, Spelling.exponentChars, List.append_nil]
  · have hne : s.digits ≠ [] := by
      rcases hs.head with ⟨h0, -⟩ | ⟨c, cs, hc, -⟩
      · simp [h0]
      · simp [hc]
    simp [Spelling.chars, Spelling.fractionChars, Spelling.exponentChars, hne]

theorem chars_exponentialSpelling (negative : Bool) {s : Scientific} :
    (exponentialSpelling negative s).chars = Spelling.signChars negative ++ exponential s := by
  unfold exponentialSpelling exponential
  rcases hs : s.digits with _ | ⟨d, _ | ⟨e, ds⟩⟩ <;> by_cases hneg : s.exponent < 0 <;>
    simp [Spelling.chars, Spelling.fractionChars, Spelling.exponentChars, hneg]

theorem DoubleFormat.chars_spelling (format : DoubleFormat) (x : Double) :
    (format.spelling x).chars = format.render x := by
  have hsign : ∀ body : List Char,
      Spelling.signChars x.negative ++ body = if x.negative then '-' :: body else body := by
    intro body
    cases x.negative <;> rfl
  unfold DoubleFormat.spelling DoubleFormat.render
  dsimp only
  rw [← hsign]
  split_ifs
  · exact chars_positionalSpelling _ (wellShaped_shortest x)
  · exact chars_exponentialSpelling _

theorem wellFormed_positionalSpelling (negative : Bool) {s : Scientific} (hs : s.WellShaped) :
    (positionalSpelling negative s).WellFormed := by
  unfold positionalSpelling
  split_ifs with h
  · refine ⟨?_, ?_, ?_, by simp⟩
    · intro c hc
      rcases List.mem_append.mp hc with hc | hc
      · exact hs.digit c (List.mem_of_mem_take hc)
      · rw [List.eq_of_mem_replicate hc]
        rfl
    · rcases hs.head with ⟨h0, he⟩ | ⟨c, cs, hc, hc0⟩
      · exact .inl (by simp [h0, he])
      · exact .inr ⟨c, _, by dsimp only; rw [hc, List.take_succ_cons, List.cons_append], hc0⟩
    · intro c hc
      dsimp only at hc
      split_ifs at hc
      · obtain rfl := List.mem_singleton.mp hc
        rfl
      · exact hs.digit c (List.mem_of_mem_drop hc)
  · refine ⟨by simp, .inl rfl, ?_, by simp⟩
    intro c hc
    rcases List.mem_append.mp hc with hc | hc
    · rw [List.eq_of_mem_replicate hc]
      rfl
    · exact hs.digit c hc

theorem wellFormed_exponentialSpelling (negative : Bool) {s : Scientific} (hs : s.WellShaped) :
    (exponentialSpelling negative s).WellFormed := by
  refine ⟨fun c hc => hs.digit c (List.mem_of_mem_take hc), ?_,
    fun c hc => hs.digit c (List.mem_of_mem_drop hc), ?_⟩
  · rcases hs.head with ⟨h0, -⟩ | ⟨c, cs, hc, hc0⟩
    · exact .inl (by simp [exponentialSpelling, h0])
    · exact .inr ⟨c, [], by simp [exponentialSpelling, hc], hc0⟩
  · rintro _ ⟨⟩
    exact ⟨digits_ne_nil _, fun c hc => isDigit_of_mem_digits hc⟩

theorem DoubleFormat.wellFormed_spelling (format : DoubleFormat) (x : Double) :
    (format.spelling x).WellFormed := by
  unfold DoubleFormat.spelling
  dsimp only
  split_ifs
  · exact wellFormed_positionalSpelling _ (wellShaped_shortest x)
  · exact wellFormed_exponentialSpelling _ (wellShaped_shortest x)

end Decimal

namespace Json

namespace Number

/-- Every number is written by a spelling. -/
theorem exists_spelling (n : Number) : ∃ s : Spelling, s.WellFormed ∧ s.chars = n.toChars := by
  cases n with
  | int n => exact ⟨_, wellFormed_intSpelling n, chars_intSpelling n⟩
  | double x => exact ⟨_, doubleFormat.wellFormed_spelling x, doubleFormat.chars_spelling x⟩

/-- The numeral of a number is read as the same number wherever it stands. -/
theorem exists_scan?_toChars (n : Number) : ∃ numeral : Numeral, numeral.value? = n.reread? ∧
    ∀ rest, Numeral.Ends rest → Numeral.scan? (n.toChars ++ rest) = some (numeral, rest) := by
  obtain ⟨s, hs, hc⟩ := n.exists_spelling
  refine ⟨s.numeral, ?_, fun rest hr => by rw [← hc, Numeral.scan?_chars hs hr]⟩
  have hscan := Numeral.scan?_chars hs Numeral.ends_nil
  rw [reread?, ← hc, ← List.append_nil s.chars, hscan]
  rfl

/-- The numeral of a number begins with a minus sign or a digit. -/
theorem exists_toChars_eq_cons (n : Number) :
    ∃ c cs, n.toChars = c :: cs ∧ (c = '-' ∨ c.isDigit = true) := by
  obtain ⟨s, hs, hc⟩ := n.exists_spelling
  rw [← hc, Spelling.chars]
  cases s.negative with
  | true => exact ⟨'-', _, rfl, .inl rfl⟩
  | false =>
    rcases hs.whole_head with h | ⟨c, cs, h, -⟩
    · exact ⟨'0', _, by rw [h]; rfl, .inr rfl⟩
    · exact ⟨c, _, by rw [h]; rfl, .inr (hs.whole_digit c (by simp [h]))⟩

/-- An integer of 64 bits is read back. -/
theorem reread?_int {n : Int} (hlow : Text.minInt64 ≤ n) (hhigh : n ≤ Text.maxNat64) :
    reread? (.int n) = some (.int n) := by
  have hscan := Numeral.scan?_chars (wellFormed_intSpelling n) Numeral.ends_nil
  have hvalue := Numeral.valueOf_digits n.natAbs
  unfold Text.minInt64 at hlow
  unfold Text.maxNat64 at hhigh
  -- The magnitude fits into 64 bits, so no digit of it is left out.
  have hacc : Numeral.accumulate 0 (digitValues (Decimal.digits n.natAbs)) = (n.natAbs, 0) := by
    have hle : (digitValues (Decimal.digits n.natAbs)).foldl (fun n d => n * 10 + d) 0 ≤
        Text.maxNat64 := by
      rw [show List.foldl _ _ _ = _ from hvalue]
      unfold Text.maxNat64
      omega
    rw [Numeral.accumulate_eq hle, show List.foldl _ _ _ = _ from hvalue]
  rw [List.append_nil, chars_intSpelling] at hscan
  rw [reread?, toChars, hscan, Option.bind_some]
  simp only [Numeral.value?, Spelling.numeral, intSpelling, hacc]
  by_cases hn : n < 0
  · have h1 : ¬ (!decide (n < 0)) = true := by simp [hn]
    have h2 : 0 < n.natAbs ∧ n.natAbs ≤ 0x8000000000000000 := by omega
    rw [if_pos ⟨trivial, rfl, rfl⟩, if_neg h1, if_pos h2]
    congr
    omega
  · have h1 : (!decide (n < 0)) = true := by simp [hn]
    rw [if_pos ⟨trivial, rfl, rfl⟩, if_pos h1]
    congr
    omega

end Number

end Json

end Polyglot
