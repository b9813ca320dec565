import Mathlib.Data.List.Forall2
import Polyglot.Proofs.Association
import Polyglot.Proofs.Json.Equality
import Polyglot.Value.Display
import Polyglot.Value.Entries

/-!
# Equality of native values

Equality of native values is an equivalence (`same_refl`, `same_symm`, `same_trans`).  So equal maps
stay equal when equal entries are inserted (`sameEntries_insert`), messages show equal values alike
(`display_congr`), and the keys of a map stay different when each is replaced by one that equals it
(`Entries.KeysDiffer.congr`).  Entries whose keys differ are what inserting them gives
(`Entries.foldl_insert_of_keysDiffer`).
-/

namespace Polyglot.Value

/-! ### An equivalence -/

theorem sameDeclared_refl (t : Option Json) : sameDeclared t t = true := by
  cases t with
  | none => rfl
  | some j => exact j.same_refl

theorem sameDeclared_symm {t u : Option Json} (h : sameDeclared t u = true) :
    sameDeclared u t = true := by
  cases t <;> cases u <;> try contradiction
  · rfl
  · exact Json.same_symm h

theorem sameDeclared_trans {t u v : Option Json} (htu : sameDeclared t u = true)
    (huv : sameDeclared u v = true) : sameDeclared t v = true := by
  cases t <;> cases u <;> cases v <;> try contradiction
  · rfl
  · exact Json.same_trans htu huv

mutual

theorem same_refl (a : Value) : a.same a = true := by
  cases a with
  | text s | reference id | flag b => rw [same, beq_self_eq_true]
  | unit => rw [same]
  | list xs => rw [same, sameItems_refl xs]
  | pair a b _ => rw [same, same_refl a, same_refl b, Bool.and_self]
  | map es => rw [same, sameEntries_refl es]
  | record t fs => rw [same, sameDeclared_refl t, sameFields_refl fs, Bool.and_self]

theorem sameItems_refl (xs : List Value) : sameItems xs xs = true := by
  cases xs with
  | nil => rw [sameItems]
  | cons x xs => rw [sameItems, same_refl x, sameItems_refl xs, Bool.and_self]

theorem sameEntries_refl (es : List (Value × Value)) : sameEntries es es = true := by
  cases es with
  | nil => rw [sameEntries]
  | cons e es =>
    obtain ⟨k, x⟩ := e
    rw [sameEntries, same_refl k, same_refl x, sameEntries_refl es, Bool.and_self, Bool.and_self]

theorem sameFields_refl (fs : List (String × Value)) : sameFields fs fs = true := by
  cases fs with
  | nil => rw [sameFields]
  | cons f fs =>
    obtain ⟨k, x⟩ := f
    rw [sameFields, beq_self_eq_true, same_refl x, sameFields_refl fs, Bool.and_self, Bool.and_self]

end

mutual

theorem same_symm {a b : Value} (h : a.same b = true) : b.same a = true := by
  cases a <;> cases b <;>
    simp only [same, beq_iff_eq, Bool.and_eq_true, Bool.false_eq_true] at h ⊢
  · exact h.symm
  · exact h.symm
  · exact h.symm
  · exact sameItems_symm h
  · exact ⟨same_symm h.1, same_symm h.2⟩
  · exact sameEntries_symm h
  · exact ⟨sameDeclared_symm h.1, sameFields_symm h.2⟩
termination_by structural a

theorem sameItems_symm {xs ys : List Value} (h : sameItems xs ys = true) :
    sameItems ys xs = true := by
  cases xs <;> cases ys <;> simp only [sameItems, Bool.and_eq_true, Bool.false_eq_true] at h ⊢
  exact ⟨same_symm h.1, sameItems_symm h.2⟩
termination_by structural xs

theorem sameEntries_symm {es fs : List (Value × Value)} (h : sameEntries es fs = true) :
    sameEntries fs es = true := by
  rcases es with _ | ⟨⟨k, x⟩, es⟩ <;> rcases fs with _ | ⟨⟨l, y⟩, fs⟩ <;>
    simp only [sameEntries, Bool.and_eq_true, Bool.false_eq_true] at h ⊢
  exact ⟨⟨same_symm h.1.1, same_symm h.1.2⟩, sameEntries_symm h.2⟩
termination_by structural es

theorem sameFields_symm {fs gs : List (String × Value)} (h : sameFields fs gs = true) :
    sameFields gs fs = true := by
  rcases fs with _ | ⟨⟨k, x⟩, fs⟩ <;> rcases gs with _ | ⟨⟨l, y⟩, gs⟩ <;>
    simp only [sameFields, Bool.and_eq_true, beq_iff_eq, Bool.false_eq_true] at h ⊢
  exact ⟨⟨h.1.1.symm, same_symm h.1.2⟩, sameFields_symm h.2⟩
termination_by structural fs

end

mutual

theorem same_trans {a b c : Value} (hab : a.same b = true) (hbc : b.same c = true) :
    a.same c = true := by
  cases a <;> cases b <;>
    simp only [same, beq_iff_eq, Bool.and_eq_true, Bool.false_eq_true] at hab <;>
    cases c <;> simp only [same, beq_iff_eq, Bool.and_eq_true, Bool.false_eq_true] at hbc ⊢
  · exact hab.trans hbc
  · exact hab.trans hbc
  · exact hab.trans hbc
  · exact sameItems_trans hab hbc
  · exact ⟨same_trans hab.1 hbc.1, same_trans hab.2 hbc.2⟩
  · exact sameEntries_trans hab hbc
  · exact ⟨sameDeclared_trans hab.1 hbc.1, sameFields_trans hab.2 hbc.2⟩
termination_by structural a

theorem sameItems_trans {xs ys zs : List Value} (hxy : sameItems xs ys = true)
    (hyz : sameItems ys zs = true) : sameItems xs zs = true := by
  cases xs <;> cases ys <;>
    simp only [sameItems, Bool.and_eq_true, Bool.false_eq_true] at hxy <;>
    cases zs <;> simp only [sameItems, Bool.and_eq_true, Bool.false_eq_true] at hyz ⊢
  exact ⟨same_trans hxy.1 hyz.1, sameItems_trans hxy.2 hyz.2⟩
termination_by structural xs

theorem sameEntries_trans {es fs gs : List (Value × Value)} (hef : sameEntries es fs = true)
    (hfg : sameEntries fs gs = true) : sameEntries es gs = true := by
  rcases es with _ | ⟨⟨k, x⟩, es⟩ <;> rcases fs with _ | ⟨⟨l, y⟩, fs⟩ <;>
    simp only [sameEntries, Bool.and_eq_true, Bool.false_eq_true] at hef <;>
    rcases gs with _ | ⟨⟨m, z⟩, gs⟩ <;>
    simp only [sameEntries, Bool.and_eq_true, Bool.false_eq_true] at hfg ⊢
  exact ⟨⟨same_trans hef.1.1 hfg.1.1, same_trans hef.1.2 hfg.1.2⟩, sameEntries_trans hef.2 hfg.2⟩
termination_by structural es

theorem sameFields_trans {es fs gs : List (String × Value)} (hef : sameFields es fs = true)
    (hfg : sameFields fs gs = true) : sameFields es gs = true := by
  rcases es with _ | ⟨⟨k, x⟩, es⟩ <;> rcases fs with _ | ⟨⟨l, y⟩, fs⟩ <;>
    simp only [sameFields, Bool.and_eq_true, beq_iff_eq, Bool.false_eq_true] at hef <;>
    rcases gs with _ | ⟨⟨m, z⟩, gs⟩ <;>
    simp only [sameFields, Bool.and_eq_true, beq_iff_eq, Bool.false_eq_true] at hfg ⊢
  exact ⟨⟨hef.1.1.trans hfg.1.1, same_trans hef.1.2 hfg.1.2⟩, sameFields_trans hef.2 hfg.2⟩
termination_by structural es

end

/-- Values that equal two values are equal exactly when these are. -/
theorem same_congr {a b c d : Value} (hac : a.same c = true) (hbd : b.same d = true) :
    a.same b = c.same d :=
  Bool.eq_iff_iff.mpr
    ⟨fun h => same_trans (same_symm hac) (same_trans h hbd),
      fun h => same_trans hac (same_trans h (same_symm hbd))⟩

/-! ### Item by item -/

theorem sameItems_iff {xs ys : List Value} :
    sameItems xs ys = true ↔ List.Forall₂ (fun x y => x.same y = true) xs ys := by
  induction xs generalizing ys with
  | nil => cases ys <;> simp [sameItems]
  | cons x xs ih => cases ys <;> simp [sameItems, ih]

theorem sameEntries_iff {es fs : List (Value × Value)} : sameEntries es fs = true ↔
    List.Forall₂ (fun e f => e.1.same f.1 = true ∧ e.2.same f.2 = true) es fs := by
  induction es generalizing fs with
  | nil => cases fs <;> simp [sameEntries]
  | cons e es ih => obtain ⟨k, x⟩ := e; rcases fs with _ | ⟨⟨l, y⟩, fs⟩ <;> simp [sameEntries, ih]

/-- Equal values under equal keys go to the same place in equal maps. -/
theorem sameEntries_insert {es fs : Entries} (h : sameEntries es fs = true) {k l x y : Value}
    (hkey : k.same l = true) (hvalue : x.same y = true) :
    sameEntries (es.insert k x) (fs.insert l y) = true := by
  rw [sameEntries_iff] at h ⊢
  induction h with
  | nil => exact .cons ⟨hkey, hvalue⟩ .nil
  | @cons e f es fs he hrest ih =>
    obtain ⟨k', x'⟩ := e
    obtain ⟨l', y'⟩ := f
    rw [Entries.insert, Entries.insert, same_congr he.1 hkey]
    split
    · exact .cons ⟨he.1, hvalue⟩ hrest
    · exact .cons he ih

/-! ### Equal values in messages -/

mutual

/-- A message shows equal values alike. -/
theorem display_congr {a b : Value} (h : a.same b = true) : a.display = b.display := by
  cases a <;> cases b <;>
    simp only [same, beq_iff_eq, Bool.and_eq_true, Bool.false_eq_true] at h
  · rw [h]
  · rw [h]
  · rw [h]
  · rfl
  · rw [display, display, displayItems_congr h]
  · rw [display, display, display_congr h.1, display_congr h.2]
  · rw [display, display, displayEntries_congr h]
  · rw [display, display, displayFields_congr h.2]
termination_by structural a

theorem displayItems_congr {xs ys : List Value} (h : sameItems xs ys = true) :
    displayItems xs = displayItems ys := by
  cases xs <;> cases ys <;> simp only [sameItems, Bool.and_eq_true, Bool.false_eq_true] at h
  · rfl
  · rw [displayItems, displayItems, display_congr h.1, displayItems_congr h.2]
termination_by structural xs

theorem displayEntries_congr {es fs : List (Value × Value)} (h : sameEntries es fs = true) :
    displayEntries es = displayEntries fs := by
  rcases es with _ | ⟨⟨k, x⟩, es⟩ <;> rcases fs with _ | ⟨⟨l, y⟩, fs⟩ <;>
    simp only [sameEntries, Bool.and_eq_true, Bool.false_eq_true] at h
  · rfl
  · rw [displayEntries, displayEntries, display_congr h.1.1, display_congr h.1.2,
      displayEntries_congr h.2]
termination_by structural es

theorem displayFields_congr {fs gs : List (String × Value)} (h : sameFields fs gs = true) :
    displayFields fs = displayFields gs := by
  rcases fs with _ | ⟨⟨k, x⟩, fs⟩ <;> rcases gs with _ | ⟨⟨l, y⟩, gs⟩ <;>
    simp only [sameFields, Bool.and_eq_true, beq_iff_eq, Bool.false_eq_true] at h
  · rfl
  · rw [displayFields, displayFields, h.1.1, display_congr h.1.2, displayFields_congr h.2]
termination_by structural fs

end

/-! ### Keys that differ -/

namespace Entries

/-- Whether no two keys of a map are equal. -/
def KeysDiffer (entries : Entries) : Prop :=
  entries.Pairwise fun e f => e.1.same f.1 = false

theorem exists_key_of_sameEntries {entries others : Entries}
    (h : sameEntries others entries = true) {f : Value × Value} (hf : f ∈ others) :
    ∃ e ∈ entries, f.1.same e.1 = true := by
  induction others generalizing entries with
  | nil => cases hf
  | cons g others ih =>
    cases entries with
    | nil => simp [sameEntries] at h
    | cons e entries =>
      obtain ⟨k, v⟩ := e
      obtain ⟨l, w⟩ := g
      simp only [sameEntries, Bool.and_eq_true] at h
      rcases List.mem_cons.mp hf with rfl | hf
      · exact ⟨(k, v), List.mem_cons_self, h.1.1⟩
      · obtain ⟨e', he', heq⟩ := ih h.2 hf
        exact ⟨e', List.mem_cons_of_mem _ he', heq⟩

/-- The keys still differ when each entry is replaced by one that equals it. -/
theorem KeysDiffer.congr {entries others : Entries} (h : entries.KeysDiffer)
    (hsame : sameEntries others entries = true) : others.KeysDiffer := by
  induction entries generalizing others with
  | nil =>
    cases others with
    | nil => exact List.Pairwise.nil
    | cons e rest => simp [sameEntries] at hsame
  | cons e rest ih =>
    cases others with
    | nil => simp [sameEntries] at hsame
    | cons f others =>
      obtain ⟨k, v⟩ := e
      obtain ⟨l, w⟩ := f
      simp only [sameEntries, Bool.and_eq_true] at hsame
      obtain ⟨hk, hrest⟩ := List.pairwise_cons.mp h
      refine List.pairwise_cons.mpr ⟨fun g hg => ?_, ih hrest hsame.2⟩
      -- Both keys equal ones of the first map, and those differ.
      obtain ⟨e, he, heq⟩ := exists_key_of_sameEntries hsame.2 hg
      show l.same g.1 = false
      rw [same_congr hsame.1.1 heq]
      exact hk e he

/-- Native maps are association lists by the equality of native values. -/
theorem insert_eq (key value : Value) (entries : Entries) :
    entries.insert key value = Association.insert same key value entries := by
  induction entries with
  | nil => rfl
  | cons e rest ih => rw [insert, Association.insert, ih]

/-- Entries whose keys differ are what inserting them one after another gives. -/
theorem foldl_insert_of_keysDiffer {entries acc : Entries} (h : KeysDiffer (acc ++ entries)) :
    entries.foldl (fun acc e => Entries.insert e.1 e.2 acc) acc = acc ++ entries := by
  simp only [insert_eq]
  exact Association.foldl_insert_of_differ h

theorem length_insert_le (entries : Entries) (key value : Value) :
    (entries.insert key value).length ≤ entries.length + 1 := by
  induction entries with
  | nil => exact Nat.le_refl 1
  | cons e rest ih =>
    obtain ⟨k, v⟩ := e
    rw [insert]
    split
    · exact Nat.le_succ _
    · exact Nat.succ_le_succ ih

/-- An insertion that makes a map longer adds the entry at the end. -/
theorem insert_eq_append_of_length {entries : Entries} {key value : Value}
    (h : (entries.insert key value).length = entries.length + 1) :
    entries.insert key value = entries ++ [(key, value)] := by
  induction entries with
  | nil => rfl
  | cons e rest ih =>
    obtain ⟨k, v⟩ := e
    rw [insert] at h ⊢
    split at h
    · exact absurd h (by simp)
    · rename_i hkey
      rw [if_neg hkey, ih (Nat.succ.inj h)]
      rfl

theorem length_foldl_insert_le (entries acc : Entries) :
    (entries.foldl (fun acc e => Entries.insert e.1 e.2 acc) acc).length ≤
      acc.length + entries.length := by
  induction entries generalizing acc with
  | nil => exact Nat.le_refl _
  | cons e rest ih =>
    have hrest := ih (acc.insert e.1 e.2)
    have hinsert := length_insert_le acc e.1 e.2
    rw [List.foldl_cons, List.length_cons]
    omega

/-- If no entry is lost, inserting entries one after another keeps them as they are. -/
theorem foldl_insert_of_length {entries acc : Entries}
    (h : (entries.foldl (fun acc e => Entries.insert e.1 e.2 acc) acc).length =
      acc.length + entries.length) :
    entries.foldl (fun acc e => Entries.insert e.1 e.2 acc) acc = acc ++ entries := by
  induction entries generalizing acc with
  | nil => exact (List.append_nil acc).symm
  | cons e rest ih =>
    have hrest := length_foldl_insert_le rest (acc.insert e.1 e.2)
    have hinsert := length_insert_le acc e.1 e.2
    rw [List.foldl_cons, List.length_cons] at h
    rw [List.foldl_cons, ih (by omega), insert_eq_append_of_length (by omega), List.append_assoc]
    rfl

end Entries

end Polyglot.Value
