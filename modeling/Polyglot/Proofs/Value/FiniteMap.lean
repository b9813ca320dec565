import Mathlib.Data.Finset.Card
import Polyglot.Proofs.Association
import Polyglot.Proofs.Value.Equality

/-!
# Native maps are finite maps

The keys of a map that insertions make differ (`Entries.keysDiffer_ofList`) and stand in the order in
which each was first inserted (`Entries.keys_ofList`); under each key is the value that was inserted
last (`Entries.find?_ofList`).  A map has as many entries as there are classes of equal keys among
those that were inserted (`Entries.length_ofList`).

`WellKeyed` says of a value that the keys of every map in it differ.
-/

namespace Polyglot.Value

theorem isKeyTest_same : Association.IsKeyTest same := ⟨same_refl, same_symm, same_trans⟩

/-- Native values, of which equal ones count as one. -/
def setoid : Setoid Value := ⟨fun a b => a.same b = true, isKeyTest_same⟩

instance : DecidableEq (Quotient setoid) :=
  Quotient.decidableEq (d := fun a b => inferInstanceAs (Decidable (a.same b = true)))

namespace Entries

/-! ### Maps as association lists -/

theorem find?_eq (key : Value) (entries : Entries) :
    find? key entries = Association.find? same key entries := by
  induction entries with
  | nil => rfl
  | cons e rest ih => rw [find?, Association.find?, ih]

theorem ofList_eq (inserts : List (Value × Value)) :
    ofList inserts = Association.ofList same inserts := by
  rw [ofList, Association.ofList]
  simp only [insert_eq]

/-! ### Insertions one after another -/

theorem keysDiffer_ofList (inserts : List (Value × Value)) : (ofList inserts).KeysDiffer := by
  rw [ofList_eq]
  exact Association.differ_ofList inserts

theorem ofList_of_keysDiffer {entries : Entries} (h : entries.KeysDiffer) : ofList entries = entries :=
  @foldl_insert_of_keysDiffer entries [] h

theorem find?_ofList (key : Value) (inserts : List (Value × Value)) :
    find? key (ofList inserts) = find? key inserts.reverse := by
  rw [find?_eq, find?_eq, ofList_eq, Association.find?_ofList isKeyTest_same]

theorem keys_ofList (inserts : List (Value × Value)) :
    (ofList inserts).keys = (inserts.map (·.1)).eraseDupsBy fun a b => b.same a := by
  rw [keys, ofList_eq, Association.keys_ofList isKeyTest_same]

/-- A key that was inserted equals one that is there, and the other way round. -/
theorem exists_key_ofList_iff (inserts : List (Value × Value)) (key : Value) :
    (∃ e ∈ ofList inserts, e.1.same key = true) ↔ ∃ e ∈ inserts, e.1.same key = true := by
  rw [← List.any_eq_true, ← List.any_eq_true, ofList_eq, Association.any_ofList isKeyTest_same]

theorem forall_ofList {P : Value → Prop} {inserts : List (Value × Value)}
    (h : ∀ e ∈ inserts, P e.1 ∧ P e.2) : ∀ e ∈ ofList inserts, P e.1 ∧ P e.2 := by
  rw [ofList_eq]
  exact Association.forall_ofList h

/-- Different keys are of different classes. -/
theorem KeysDiffer.nodup_classes {entries : Entries} (h : entries.KeysDiffer) :
    (entries.map fun e => Quotient.mk setoid e.1).Nodup := by
  refine List.pairwise_map.mpr (h.imp fun {e f} hef heq => ?_)
  have hsame : e.1.same f.1 = true := Quotient.exact heq
  rw [hef] at hsame
  cases hsame

/-- A map has an entry for each class of equal keys among those that were inserted. -/
theorem length_ofList (inserts : List (Value × Value)) :
    (ofList inserts).length = (inserts.map fun e => Quotient.mk setoid e.1).toFinset.card := by
  have hclasses : (inserts.map fun e => Quotient.mk setoid e.1).toFinset =
      ((ofList inserts).map fun e => Quotient.mk setoid e.1).toFinset := by
    ext c
    obtain ⟨key, rfl⟩ := Quotient.exists_rep c
    simp only [List.mem_toFinset, List.mem_map, Quotient.eq]
    exact (exists_key_ofList_iff inserts key).symm
  rw [hclasses, List.toFinset_card_of_nodup (keysDiffer_ofList inserts).nodup_classes,
    List.length_map]

end Entries

/-! ### Maps inside of values -/

/-- Whether the keys of each map in any part of a value differ. -/
inductive WellKeyed : Value → Prop
  | text (s : String) : WellKeyed (.text s)
  | reference (id : String) : WellKeyed (.reference id)
  | flag (b : Bool) : WellKeyed (.flag b)
  | unit : WellKeyed .unit
  | list {items : List Value} (h : ∀ v ∈ items, WellKeyed v) : WellKeyed (.list items)
  | pair {first second : Value} (declared : Option Json) (h1 : WellKeyed first)
    (h2 : WellKeyed second) : WellKeyed (.pair first second declared)
  | map {entries : Entries} (hdiffer : entries.KeysDiffer) (hk : ∀ e ∈ entries, WellKeyed e.1)
    (hv : ∀ e ∈ entries, WellKeyed e.2) : WellKeyed (.map entries)
  | record (declared : Option Json) {fields : List (String × Value)}
    (h : ∀ f ∈ fields, WellKeyed f.2) : WellKeyed (.record declared fields)

end Polyglot.Value
