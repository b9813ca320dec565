import Polyglot.Proofs.Json.WellFormed

/-!
# Equality of JSON values

Equality of JSON values, which compares numbers as numbers, is an equivalence (`same_refl`,
`same_symm`, `same_trans`).  Only the two floating-point zeros are different and equal, so values
without floating-point numbers are equal to themselves alone (`eq_of_same`).
-/

namespace Polyglot

namespace Decimal.Double

theorem same_refl (a : Double) : a.same a = true := same_iff.mpr (.inr rfl)

theorem same_symm {a b : Double} (h : a.same b = true) : b.same a = true := by
  rcases same_iff.mp h with ⟨ha, hb⟩ | rfl
  · exact same_iff.mpr (.inl ⟨hb, ha⟩)
  · exact h

theorem same_trans {a b c : Double} (hab : a.same b = true) (hbc : b.same c = true) :
    a.same c = true := by
  rcases same_iff.mp hab with ⟨ha, hb⟩ | rfl
  · rcases same_iff.mp hbc with ⟨_, hc⟩ | rfl
    · exact same_iff.mpr (.inl ⟨ha, hc⟩)
    · exact hab
  · exact hbc

end Decimal.Double

namespace Json

namespace Number

theorem same_refl (a : Number) : a.same a = true := by
  cases a with
  | int n => exact beq_self_eq_true n
  | double x => exact x.same_refl

theorem same_symm {a b : Number} (h : a.same b = true) : b.same a = true := by
  cases a <;> cases b
  · exact beq_iff_eq.mpr (beq_iff_eq.mp h).symm
  · cases h
  · cases h
  · exact Decimal.Double.same_symm h

theorem same_trans {a b c : Number} (hab : a.same b = true) (hbc : b.same c = true) :
    a.same c = true := by
  cases a <;> cases b <;> cases c <;> try contradiction
  · exact beq_iff_eq.mpr ((beq_iff_eq.mp hab).trans (beq_iff_eq.mp hbc))
  · exact Decimal.Double.same_trans hab hbc

end Number

mutual

theorem same_refl (a : Json) : a.same a = true := by
  cases a with
  | null => rfl
  | bool b => exact beq_self_eq_true b
  | num n => exact n.same_refl
  | str s => exact beq_self_eq_true s
  | arr xs => exact sameItems_refl xs
  | obj xs => exact sameFields_refl xs

theorem sameItems_refl (xs : List Json) : sameItems xs xs = true := by
  cases xs with
  | nil => rfl
  | cons x xs => exact Bool.and_eq_true_iff.mpr ⟨same_refl x, sameItems_refl xs⟩

theorem sameFields_refl (xs : List (String × Json)) : sameFields xs xs = true := by
  cases xs with
  | nil => rfl
  | cons x xs =>
    obtain ⟨k, x⟩ := x
    simp only [sameFields, beq_self_eq_true, same_refl x, sameFields_refl xs, Bool.and_self]

end

mutual

theorem same_symm {a b : Json} (h : a.same b = true) : b.same a = true := by
  cases a <;> cases b <;> try contradiction
  · rfl
  · exact beq_iff_eq.mpr (beq_iff_eq.mp h).symm
  · exact Number.same_symm h
  · exact beq_iff_eq.mpr (beq_iff_eq.mp h).symm
  · exact sameItems_symm h
  · exact sameFields_symm h

theorem sameItems_symm {xs ys : List Json} (h : sameItems xs ys = true) :
    sameItems ys xs = true := by
  cases xs <;> cases ys <;> try contradiction
  · rfl
  · obtain ⟨hx, hxs⟩ := Bool.and_eq_true_iff.mp h
    exact Bool.and_eq_true_iff.mpr ⟨same_symm hx, sameItems_symm hxs⟩

theorem sameFields_symm {xs ys : List (String × Json)} (h : sameFields xs ys = true) :
    sameFields ys xs = true := by
  cases xs <;> cases ys <;> try contradiction
  · rfl
  · rename_i x xs y ys
    obtain ⟨k, x⟩ := x
    obtain ⟨l, y⟩ := y
    simp only [sameFields, Bool.and_eq_true, beq_iff_eq] at h ⊢
    obtain ⟨⟨rfl, hx⟩, hxs⟩ := h
    exact ⟨⟨rfl, same_symm hx⟩, sameFields_symm hxs⟩

end

mutual

theorem same_trans {a b c : Json} (hab : a.same b = true) (hbc : b.same c = true) :
    a.same c = true := by
  cases a <;> cases b <;> try contradiction
  all_goals cases c <;> try contradiction
  · rfl
  · exact beq_iff_eq.mpr ((beq_iff_eq.mp hab).trans (beq_iff_eq.mp hbc))
  · exact Number.same_trans hab hbc
  · exact beq_iff_eq.mpr ((beq_iff_eq.mp hab).trans (beq_iff_eq.mp hbc))
  · exact sameItems_trans hab hbc
  · exact sameFields_trans hab hbc
termination_by structural a

theorem sameItems_trans {xs ys zs : List Json} (hxy : sameItems xs ys = true)
    (hyz : sameItems ys zs = true) : sameItems xs zs = true := by
  cases xs <;> cases ys <;> cases zs <;> try contradiction
  · rfl
  · obtain ⟨hx, hxs⟩ := Bool.and_eq_true_iff.mp hxy
    obtain ⟨hy, hys⟩ := Bool.and_eq_true_iff.mp hyz
    exact Bool.and_eq_true_iff.mpr ⟨same_trans hx hy, sameItems_trans hxs hys⟩
termination_by structural xs

theorem sameFields_trans {xs ys zs : List (String × Json)} (hxy : sameFields xs ys = true)
    (hyz : sameFields ys zs = true) : sameFields xs zs = true := by
  cases xs <;> cases ys <;> cases zs <;> try contradiction
  · rfl
  · rename_i x xs y ys z zs
    obtain ⟨k, x⟩ := x
    obtain ⟨l, y⟩ := y
    obtain ⟨m, z⟩ := z
    simp only [sameFields, Bool.and_eq_true, beq_iff_eq] at hxy hyz ⊢
    obtain ⟨⟨rfl, hx⟩, hxs⟩ := hxy
    obtain ⟨⟨rfl, hy⟩, hys⟩ := hyz
    exact ⟨⟨rfl, same_trans hx hy⟩, sameFields_trans hxs hys⟩
termination_by structural xs

end

/-! ### Values without floating-point numbers -/

mutual

/-- What a value without floating-point numbers is equal to is that value. -/
theorem eq_of_same {a b : Json} (hints : ∀ n ∈ a.numbers, ∃ k, n = .int k)
    (h : a.same b = true) : a = b := by
  cases a <;> cases b <;> try contradiction
  · rfl
  · exact congrArg bool (beq_iff_eq.mp h)
  · rename_i n m
    rw [numbers, List.forall_mem_singleton] at hints
    obtain ⟨k, rfl⟩ := hints
    cases m with
    | int l => exact congrArg (num ∘ Number.int) (beq_iff_eq.mp h)
    | double x => cases h
  · exact congrArg str (beq_iff_eq.mp h)
  · rw [numbers] at hints
    exact congrArg arr (eq_of_sameItems hints h)
  · rw [numbers] at hints
    exact congrArg obj (eq_of_sameFields hints h)

theorem eq_of_sameItems {xs ys : List Json} (hints : ∀ n ∈ numbersOfItems xs, ∃ k, n = .int k)
    (h : sameItems xs ys = true) : xs = ys := by
  cases xs <;> cases ys <;> try contradiction
  · rfl
  · rw [numbersOfItems, List.forall_mem_append] at hints
    obtain ⟨hx, hxs⟩ := Bool.and_eq_true_iff.mp h
    rw [eq_of_same hints.1 hx, eq_of_sameItems hints.2 hxs]

theorem eq_of_sameFields {xs ys : List (String × Json)}
    (hints : ∀ n ∈ numbersOfFields xs, ∃ k, n = .int k) (h : sameFields xs ys = true) : xs = ys := by
  cases xs <;> cases ys <;> try contradiction
  · rfl
  · rename_i x xs y ys
    obtain ⟨k, x⟩ := x
    obtain ⟨l, y⟩ := y
    rw [numbersOfFields, List.forall_mem_append] at hints
    simp only [sameFields, Bool.and_eq_true, beq_iff_eq] at h
    obtain ⟨⟨rfl, hx⟩, hxs⟩ := h
    rw [eq_of_same hints.1 hx, eq_of_sameFields hints.2 hxs]

end

end Json

end Polyglot
