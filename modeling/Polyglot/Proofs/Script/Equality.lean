import Polyglot.Proofs.Association
import Polyglot.Proofs.Script.Data
import Polyglot.Proofs.Value.Equality

/-!
# Equality of data

Equality of the data of scripts is an equivalence (`isKeyTest_same`): each value equals itself
(`same_refl`), and of two values that are equal, either may stand for the other in a comparison
(`same_congr_left`).  So the maps of scripts are association lists by a test of keys, to which all that
holds of those applies (`insertEntry_eq`, `valueAt?_eq`).
-/

namespace Polyglot.Script.Datum

/-! ### An equivalence -/

mutual

theorem same_refl (a : Datum) : a.same a = true := by
  cases a with
  | null => rw [same]
  | bool _ | int _ | text _ | reference _ | closure _ | builtin _ => rw [same, beq_self_eq_true]
  | list xs => rw [same, sameItems_refl xs]
  | pair a b _ => rw [same, same_refl a, same_refl b, Bool.and_self]
  | map es => rw [same, sameEntries_refl es]
  | record t fs => rw [same, Value.sameDeclared_refl t, sameFields_refl fs, Bool.and_self]

theorem sameItems_refl (xs : List Datum) : sameItems xs xs = true := by
  cases xs with
  | nil => rw [sameItems]
  | cons x xs => rw [sameItems, same_refl x, sameItems_refl xs, Bool.and_self]

theorem sameEntries_refl (es : List (Datum × Datum)) : sameEntries es es = true := by
  cases es with
  | nil => rw [sameEntries]
  | cons e es =>
    obtain ⟨k, x⟩ := e
    rw [sameEntries, same_refl k, same_refl x, sameEntries_refl es, Bool.and_self, Bool.and_self]

theorem sameFields_refl (fs : List (String × Datum)) : sameFields fs fs = true := by
  cases fs with
  | nil => rw [sameFields]
  | cons f fs =>
    obtain ⟨k, x⟩ := f
    rw [sameFields, beq_self_eq_true, same_refl x, sameFields_refl fs, Bool.and_self, Bool.and_self]

end

theorem sameDeclared_congr_left {t u : Option Json} (h : Value.sameDeclared t u = true)
    (v : Option Json) : Value.sameDeclared t v = Value.sameDeclared u v :=
  Bool.eq_iff_iff.mpr ⟨Value.sameDeclared_trans (Value.sameDeclared_symm h),
    Value.sameDeclared_trans h⟩

mutual

/-- Of two values that are equal, a third one equals both or none. -/
theorem same_congr_left {a b : Datum} (h : a.same b = true) (c : Datum) : a.same c = b.same c := by
  cases a <;> cases b <;>
    simp only [same, beq_iff_eq, Bool.and_eq_true, Bool.false_eq_true] at h <;>
    cases c <;> simp only [same]
  · rw [h]
  · rw [h]
  · rw [h]
  · rw [h]
  · exact sameItems_congr_left h _
  · rw [same_congr_left h.1, same_congr_left h.2]
  · exact sameEntries_congr_left h _
  · rw [sameDeclared_congr_left h.1, sameFields_congr_left h.2]
  · rw [h]
  · rw [h]
termination_by structural a

theorem sameItems_congr_left {xs ys : List Datum} (h : sameItems xs ys = true) (zs : List Datum) :
    sameItems xs zs = sameItems ys zs := by
  cases xs <;> cases ys <;> simp only [sameItems, Bool.and_eq_true, Bool.false_eq_true] at h
  · rfl
  · cases zs with
    | nil => simp only [sameItems]
    | cons z zs => rw [sameItems, sameItems, same_congr_left h.1, sameItems_congr_left h.2]
termination_by structural xs

theorem sameEntries_congr_left {es fs : List (Datum × Datum)} (h : sameEntries es fs = true)
    (gs : List (Datum × Datum)) : sameEntries es gs = sameEntries fs gs := by
  rcases es with _ | ⟨⟨k, x⟩, es⟩ <;> rcases fs with _ | ⟨⟨l, y⟩, fs⟩ <;>
    simp only [sameEntries, Bool.and_eq_true, Bool.false_eq_true] at h
  · rfl
  · rcases gs with _ | ⟨⟨m, z⟩, gs⟩
    · simp only [sameEntries]
    · rw [sameEntries, sameEntries, same_congr_left h.1.1, same_congr_left h.1.2,
        sameEntries_congr_left h.2]
termination_by structural es

theorem sameFields_congr_left {fs gs : List (String × Datum)} (h : sameFields fs gs = true)
    (hs : List (String × Datum)) : sameFields fs hs = sameFields gs hs := by
  rcases fs with _ | ⟨⟨k, x⟩, fs⟩ <;> rcases gs with _ | ⟨⟨l, y⟩, gs⟩ <;>
    simp only [sameFields, beq_iff_eq, Bool.and_eq_true, Bool.false_eq_true] at h
  · rfl
  · rcases hs with _ | ⟨⟨m, z⟩, hs⟩
    · simp only [sameFields]
    · rw [sameFields, sameFields, h.1.1, same_congr_left h.1.2, sameFields_congr_left h.2]
termination_by structural fs

end

theorem isKeyTest_same : Association.IsKeyTest same where
  refl := same_refl
  symm {a b} h := by rw [← same_congr_left h, same_refl]
  trans {a b c} hab hbc := by rw [same_congr_left hab, hbc]

/-! ### Maps as association lists -/

theorem valueAt?_eq (key : Datum) (entries : List (Datum × Datum)) :
    valueAt? key entries = Association.find? same key entries := by
  induction entries with
  | nil => rfl
  | cons e rest ih => rw [valueAt?, Association.find?, ih]

end Polyglot.Script.Datum
