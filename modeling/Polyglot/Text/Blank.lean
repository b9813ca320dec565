/-!
# Blank characters

The characters with the Unicode property White_Space, and the removal of them from the ends of a
text. What is left is empty exactly when the text is blank throughout (`trim_eq_empty_iff`), and a text
between two characters that are not blank stays whole (`trimChars_append`).
-/

namespace Polyglot.Text

/-- Whether a character has the Unicode property White_Space. -/
def isBlank (c : Char) : Bool :=
  let n := c.toNat
  (9 ≤ n && n ≤ 13) || n == 0x20 || n == 0x85 || n == 0xA0 || n == 0x1680 ||
    (0x2000 ≤ n && n ≤ 0x200A) || n == 0x2028 || n == 0x2029 || n == 0x202F || n == 0x205F ||
    n == 0x3000

/-- A list of characters without the blanks it begins with. -/
def trimLeft (cs : List Char) : List Char := cs.dropWhile isBlank

/-- A list of characters without the blanks it ends with. -/
def trimRight (cs : List Char) : List Char := (trimLeft cs.reverse).reverse

/-- A list of characters without the blanks at both of its ends. -/
def trimChars (cs : List Char) : List Char := trimRight (trimLeft cs)

/-- A text without the blanks at both of its ends. -/
def trim (s : String) : String := String.ofList (trimChars s.toList)

/-- Whether a text has no character but blanks. -/
def isBlankText (s : String) : Bool := s.toList.all isBlank

theorem trimLeft_eq_nil_iff {cs : List Char} : trimLeft cs = [] ↔ cs.all isBlank = true := by
  induction cs with
  | nil => simp [trimLeft]
  | cons c cs ih => by_cases h : isBlank c <;> simp_all [trimLeft]

theorem trimRight_eq_nil_iff {cs : List Char} : trimRight cs = [] ↔ cs.all isBlank = true := by
  simp [trimRight, trimLeft_eq_nil_iff]

/-- What is left of a text is empty exactly when the text is blank throughout. -/
theorem trimChars_eq_nil_iff {cs : List Char} : trimChars cs = [] ↔ cs.all isBlank = true := by
  induction cs with
  | nil => simp [trimChars, trimRight_eq_nil_iff, trimLeft]
  | cons c cs ih =>
    by_cases h : isBlank c
    · simp_all [trimChars, trimLeft]
    · simp [trimChars, trimRight_eq_nil_iff, trimLeft, h]

theorem trim_eq_empty_iff {s : String} : trim s = "" ↔ isBlankText s = true := by
  rw [trim, isBlankText, ← trimChars_eq_nil_iff, ← String.ofList_nil, String.ofList_inj]

theorem trimLeft_append {before cs : List Char} (h : before.all isBlank = true) :
    trimLeft (before ++ cs) = trimLeft cs :=
  List.dropWhile_append_of_pos (List.all_eq_true.mp h)

theorem trimLeft_cons {c : Char} (h : isBlank c = false) (cs : List Char) :
    trimLeft (c :: cs) = c :: cs :=
  List.dropWhile_cons_of_neg (Bool.eq_false_iff.mp h)

theorem trimLeft_eq_self {cs : List Char} (h : ∀ c ∈ cs, isBlank c = false) : trimLeft cs = cs := by
  cases cs with
  | nil => rfl
  | cons c cs => exact trimLeft_cons (h c List.mem_cons_self) cs

/-- A text without blanks stays as it is. -/
theorem trimChars_eq_self {cs : List Char} (h : ∀ c ∈ cs, isBlank c = false) : trimChars cs = cs := by
  have hreverse : ∀ c ∈ cs.reverse, isBlank c = false := fun c hc => h c (List.mem_reverse.mp hc)
  rw [trimChars, trimRight, trimLeft_eq_self h, trimLeft_eq_self hreverse, List.reverse_reverse]

/-- Just the blanks around a text go, if it begins and ends with characters that are not blank. -/
theorem trimChars_append {before after : List Char} (hbefore : before.all isBlank = true)
    (hafter : after.all isBlank = true) {first last : Char} (hfirst : isBlank first = false)
    (hlast : isBlank last = false) (cs : List Char) :
    trimChars (before ++ (first :: (cs ++ [last]) ++ after)) = first :: (cs ++ [last]) := by
  have hreverse : (first :: (cs ++ [last]) ++ after).reverse =
      after.reverse ++ last :: (first :: cs).reverse := by simp
  have hblank : after.reverse.all isBlank = true := by rwa [List.all_reverse]
  rw [trimChars, trimLeft_append hbefore, List.cons_append, trimLeft_cons hfirst, ← List.cons_append,
    trimRight, hreverse, trimLeft_append hblank, trimLeft_cons hlast]
  simp

end Polyglot.Text
