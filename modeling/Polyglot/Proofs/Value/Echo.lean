import Mathlib.Data.List.Forall2
import Polyglot.Proofs.Json.WellFormed
import Polyglot.Proofs.Value.FiniteMap

/-!
# Values that come back

A value that was written and read again comes back with other declared types, without the fields that
its type does not declare, and with a reference where a text was written as one.  `Value.echoes` allows
for that and for nothing else: lists and maps come back with as many parts as they had, and each part
comes back.  Equality is stronger for records whose keys ascend (`echoesFields_of_sameFields`).
-/

namespace Polyglot.Value

mutual

/-- Whether a value that was read is one that was written, declared types apart. -/
def echoes : Value → Value → Bool
  | text s, text t => s == t
  | reference a, reference b => a == b
  | reference a, text s => a == s
  | flag a, flag b => a == b
  | unit, unit => true
  | list xs, list ys => echoesItems xs ys
  | pair a b _, pair c d _ => echoes a c && echoes b d
  | map xs, map ys => echoesEntries xs ys
  | record _ xs, record _ ys => echoesFields xs ys
  | _, _ => false

/-- Whether items that were read are those that were written. -/
def echoesItems : List Value → List Value → Bool
  | [], [] => true
  | x :: xs, y :: ys => echoes x y && echoesItems xs ys
  | _, _ => false

/-- Whether entries that were read are those that were written, in the same order. -/
def echoesEntries : List (Value × Value) → List (Value × Value) → Bool
  | [], [] => true
  | (k, x) :: xs, (l, y) :: ys => echoes k l && echoes x y && echoesEntries xs ys
  | _, _ => false

/-- Whether fields that were read are among those that were written. -/
def echoesFields : List (String × Value) → List (String × Value) → Bool
  | [], _ => true
  | (k, x) :: xs, ys =>
    (match Json.Fields.find? ys k with
      | some y => echoes x y
      | none => false) && echoesFields xs ys

end

/-! ### Part by part -/

theorem echoesItems_iff {xs ys : List Value} :
    echoesItems xs ys = true ↔ List.Forall₂ (fun x y => x.echoes y = true) xs ys := by
  induction xs generalizing ys with
  | nil => cases ys <;> simp [echoesItems]
  | cons x xs ih => cases ys <;> simp [echoesItems, ih]

theorem echoesEntries_iff {es fs : List (Value × Value)} : echoesEntries es fs = true ↔
    List.Forall₂ (fun e f => e.1.echoes f.1 = true ∧ e.2.echoes f.2 = true) es fs := by
  induction es generalizing fs with
  | nil => cases fs <;> simp [echoesEntries]
  | cons e es ih =>
    obtain ⟨k, x⟩ := e
    cases fs with
    | nil => simp [echoesEntries]
    | cons f fs =>
      obtain ⟨l, y⟩ := f
      simp [echoesEntries, ih]

theorem echoesFields_iff {xs ys : List (String × Value)} : echoesFields xs ys = true ↔
    ∀ f ∈ xs, ∃ y, Json.Fields.find? ys f.1 = some y ∧ f.2.echoes y = true := by
  induction xs with
  | nil => simp [echoesFields]
  | cons f xs ih =>
    rw [echoesFields, Bool.and_eq_true, ih, List.forall_mem_cons]
    refine and_congr_left fun _ => ?_
    cases Json.Fields.find? ys f.1 <;> simp

/-- Entries that are inserted into a map come back if no two of their keys are equal and each comes
back. -/
theorem echoesEntries_ofList_iff {es fs : Entries} (hlength : fs.length = es.length) :
    echoesEntries (Entries.ofList fs) es = true ↔ fs.KeysDiffer ∧ echoesEntries fs es = true := by
  constructor
  · intro h
    -- Had two keys been equal, entries would be missing.
    have hkept := (echoesEntries_iff.mp h).length_eq
    have hall : Entries.ofList fs = fs := Entries.foldl_insert_of_length (by
      rw [List.length_nil, Nat.zero_add]
      exact hkept.trans hlength.symm)
    rw [hall] at h
    exact ⟨hall ▸ Entries.keysDiffer_ofList fs, h⟩
  · rintro ⟨hdiffer, h⟩
    rwa [Entries.ofList_of_keysDiffer hdiffer]

/-! ### Equal values -/

theorem echoesItems_of_sameItems {xs ys : List Value} (h : sameItems xs ys = true)
    (hitems : ∀ y ∈ ys, ∀ x : Value, x.same y = true → x.echoes y = true) :
    echoesItems xs ys = true := by
  induction xs generalizing ys with
  | nil => cases ys <;> simp_all [sameItems, echoesItems]
  | cons x xs ih =>
    cases ys with
    | nil => simp [sameItems] at h
    | cons y ys =>
      rw [sameItems, Bool.and_eq_true] at h
      obtain ⟨hy, hys⟩ := List.forall_mem_cons.mp hitems
      rw [echoesItems, hy x h.1, ih h.2 hys, Bool.and_self]

theorem echoesEntries_of_sameEntries {es fs : List (Value × Value)} (h : sameEntries es fs = true)
    (hkeys : ∀ f ∈ fs, ∀ x : Value, x.same f.1 = true → x.echoes f.1 = true)
    (hvalues : ∀ f ∈ fs, ∀ x : Value, x.same f.2 = true → x.echoes f.2 = true) :
    echoesEntries es fs = true := by
  induction es generalizing fs with
  | nil => cases fs <;> simp_all [sameEntries, echoesEntries]
  | cons e es ih =>
    cases fs with
    | nil => simp [sameEntries] at h
    | cons f fs =>
      obtain ⟨k, x⟩ := e
      obtain ⟨l, y⟩ := f
      simp only [sameEntries, Bool.and_eq_true] at h
      obtain ⟨hl, hls⟩ := List.forall_mem_cons.mp hkeys
      obtain ⟨hy, hys⟩ := List.forall_mem_cons.mp hvalues
      have hrest := ih h.2 hls hys
      rw [echoesEntries, hl k h.1.1, hy x h.1.2, hrest, Bool.and_self, Bool.and_self]

/-- Equal fields are found when the keys ascend. -/
theorem echoesFields_of_sameFields {fs gs : Json.Fields Value} (h : sameFields fs gs = true)
    (hasc : Json.Fields.Ascending gs)
    (hfields : ∀ g ∈ gs, ∀ x : Value, x.same g.2 = true → x.echoes g.2 = true) :
    echoesFields fs gs = true := by
  rw [echoesFields_iff]
  induction fs generalizing gs with
  | nil => rintro _ ⟨⟩
  | cons f fs ih =>
    cases gs with
    | nil => simp [sameFields] at h
    | cons g gs =>
      obtain ⟨k, x⟩ := f
      obtain ⟨l, y⟩ := g
      simp only [sameFields, Bool.and_eq_true, beq_iff_eq] at h
      obtain ⟨⟨rfl, hxy⟩, hrest⟩ := h
      obtain ⟨hy, hys⟩ := List.forall_mem_cons.mp hfields
      obtain ⟨hlt, hasc⟩ := List.pairwise_cons.mp hasc
      refine List.forall_mem_cons.mpr ⟨⟨y, by simp [Json.Fields.find?], hy x hxy⟩, ?_⟩
      intro f hf
      obtain ⟨z, hz, hecho⟩ := ih hrest hasc hys f hf
      -- The key of a later field is greater than the first.
      have hne : k ≠ f.1 := fun heq =>
        String.lt_irrefl k (heq ▸ hlt (f.1, z) (Json.Fields.mem_of_find? hz))
      exact ⟨z, by rw [Json.Fields.find?, if_neg hne, hz], hecho⟩

end Polyglot.Value
