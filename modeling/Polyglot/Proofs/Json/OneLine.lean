import Polyglot.Proofs.Json.Reading

/-!
# The compact text of a value is one line

The printer writes controls as escapes and puts no space anywhere, so no character of the text of a
value is below U+0020 (`le_toNat_of_mem_toChars`).  In particular the text has no newline
(`newline_notMem_render`): in a protocol of lines every value is one.
-/

namespace Polyglot.Json

theorem le_toNat_of_isDigit {c : Char} (h : c.isDigit = true) : 0x20 ≤ c.toNat :=
  Nat.le_trans (by decide) (Char.isDigit_iff_toNat.mp h).1

theorem le_toNat_of_all {cs : List Char} (hcs : cs.all (0x20 ≤ ·.toNat) = true) {c : Char}
    (h : c ∈ cs) : 0x20 ≤ c.toNat :=
  of_decide_eq_true (List.all_eq_true.mp hcs c h)

theorem Spelling.le_toNat_of_mem_chars {s : Spelling} (hs : s.WellFormed) {c : Char}
    (h : c ∈ s.chars) : 0x20 ≤ c.toNat := by
  rw [chars, List.mem_append, List.mem_append, List.mem_append] at h
  rcases h with h | h | h | h
  · unfold signChars at h
    split at h <;> simp at h
    subst h; decide
  · exact le_toNat_of_isDigit (hs.whole_digit c h)
  · unfold fractionChars at h
    split at h
    · cases h
    · rcases List.mem_cons.mp h with rfl | h
      · decide
      · exact le_toNat_of_isDigit (hs.fraction_digit c h)
  · cases he : s.exponent with
    | none => rw [he] at h; cases h
    | some e =>
      rw [he, exponentChars] at h
      rcases List.mem_cons.mp h with rfl | h
      · decide
      rcases List.mem_cons.mp h with rfl | h
      · split <;> decide
      · exact le_toNat_of_isDigit ((hs.exponent_digit e he).2 c h)

theorem Number.le_toNat_of_mem_toChars {n : Number} {c : Char} (h : c ∈ n.toChars) :
    0x20 ≤ c.toNat := by
  obtain ⟨s, hs, hchars⟩ := n.exists_spelling
  exact Spelling.le_toNat_of_mem_chars hs (hchars ▸ h)

theorem all_le_toNat_escapeChar_ofNat :
    ∀ n : Fin 0x20, (escapeChar (Char.ofNat n)).all (0x20 ≤ ·.toNat) = true := by decide

/-- Controls are written with other characters. -/
theorem le_toNat_of_mem_escapeChar {d c : Char} (h : c ∈ escapeChar d) : 0x20 ≤ c.toNat := by
  by_cases hcontrol : d.toNat < 0x20
  · exact le_toNat_of_all (all_le_toNat_escapeChar_ofNat ⟨d.toNat, hcontrol⟩)
      ((Char.ofNat_toNat d).symm ▸ h)
  · -- The quote and the backslash get a backslash before them, and all others stay.
    have hd : ∀ e : Char, e.toNat < 0x20 → d ≠ e := fun e he hde => hcontrol (hde ▸ he)
    rw [escapeChar, if_neg (hd '\x08' (by decide)), if_neg (hd '\x0c' (by decide)),
      if_neg (hd '\n' (by decide)), if_neg (hd '\r' (by decide)), if_neg (hd '\t' (by decide)),
      if_neg hcontrol] at h
    split at h
    · exact le_toNat_of_all (by decide) h
    split at h
    · exact le_toNat_of_all (by decide) h
    obtain rfl := List.mem_singleton.mp h
    exact Nat.not_lt.mp hcontrol

theorem le_toNat_of_mem_stringChars {s : String} {c : Char} (h : c ∈ stringChars s) :
    0x20 ≤ c.toNat := by
  rw [stringChars, List.cons_append, List.mem_cons, List.mem_append, List.mem_flatMap,
    List.mem_singleton] at h
  rcases h with rfl | ⟨d, -, h⟩ | rfl
  · decide
  · exact le_toNat_of_mem_escapeChar h
  · decide

mutual

/-- No character of the text of a value is a control. -/
theorem le_toNat_of_mem_toChars {c : Char} : ∀ {j : Json}, c ∈ j.toChars → 0x20 ≤ c.toNat
  | null, h | bool true, h | bool false, h | arr [], h | obj [], h => le_toNat_of_all (by decide) h
  | num n, h => Number.le_toNat_of_mem_toChars h
  | str s, h => le_toNat_of_mem_stringChars h
  | arr (x :: xs), h => by
    rw [toChars, List.mem_cons, List.mem_append] at h
    rcases h with rfl | h | h
    · decide
    · exact le_toNat_of_mem_toChars h
    · exact le_toNat_of_mem_itemChars h
  | obj ((k, x) :: xs), h => by
    rw [toChars, List.mem_cons, List.mem_append, List.mem_cons, List.mem_append] at h
    rcases h with rfl | h | rfl | h | h
    · decide
    · exact le_toNat_of_mem_stringChars h
    · decide
    · exact le_toNat_of_mem_toChars h
    · exact le_toNat_of_mem_fieldChars h

theorem le_toNat_of_mem_itemChars {c : Char} : ∀ {xs : List Json}, c ∈ itemChars xs →
    0x20 ≤ c.toNat
  | [], h => le_toNat_of_all (by decide) h
  | x :: xs, h => by
    rw [itemChars, List.mem_cons, List.mem_append] at h
    rcases h with rfl | h | h
    · decide
    · exact le_toNat_of_mem_toChars h
    · exact le_toNat_of_mem_itemChars h

theorem le_toNat_of_mem_fieldChars {c : Char} : ∀ {xs : List (String × Json)}, c ∈ fieldChars xs →
    0x20 ≤ c.toNat
  | [], h => le_toNat_of_all (by decide) h
  | (k, x) :: xs, h => by
    rw [fieldChars, List.mem_cons, List.mem_append, List.mem_cons, List.mem_append] at h
    rcases h with rfl | h | rfl | h | h
    · decide
    · exact le_toNat_of_mem_stringChars h
    · decide
    · exact le_toNat_of_mem_toChars h
    · exact le_toNat_of_mem_fieldChars h

end

/-- There is no newline in the text of a value. -/
theorem newline_notMem_render (j : Json) : '\n' ∉ j.render.toList := by
  rw [render, String.toList_ofList]
  intro h
  have hle : 0x20 ≤ '\n'.toNat := le_toNat_of_mem_toChars h
  exact absurd hle (by decide)

end Polyglot.Json
