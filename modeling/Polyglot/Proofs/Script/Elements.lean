import Polyglot.Proofs.Codec.Traversal
import Polyglot.Proofs.Script.Equality
import Polyglot.Proofs.Script.Loops
import Polyglot.Proofs.Script.Splitting

/-!
# Views of sequences

A loop, the length and the indices show the same values of a list, and of a string, of which they are
the characters (`isSequence_list`, `isSequence_text`).  Splitting a string at the empty one gives these
values, and joining them gives the string.

A loop over a map visits its entries.  A map whose keys differ is the map of its entries
(`mapOfPairs_entryPairs`), and a key leads to the value of its entry (`valueAt?_of_same`).

The main statement is `views_agree`.
-/

namespace Polyglot.Script.Datum

/-! ### Sequences -/

theorem itemAt_natCast (items : List Datum) {i : Nat} (h : i < items.length) :
    itemAt items i = items[i] := by
  unfold itemAt
  rw [if_neg (by omega), Int.toNat_natCast, List.getElem?_eq_getElem h, Option.getD_some]

theorem itemAt_of_outside (items : List Datum) {i : Int} (h : i < 0 ∨ items.length ≤ i) :
    itemAt items i = null := by
  unfold itemAt
  split
  · rfl
  · rw [List.getElem?_eq_none (by omega), Option.getD_none]

/-- Whether all views of a value show the given values. -/
structure IsSequence (sequence : Datum) (values : List Datum) : Prop where
  /-- A loop visits these values and nothing else. -/
  visits (others : List Datum) : Visits sequence others ↔ others = values
  /-- The function for the length counts them. -/
  len : apply .len [sequence] = .ok (int values.length)
  /-- The property for the length counts them. -/
  length : member sequence "length" = .ok (int values.length)
  /-- Each is under its index. -/
  inside {i : Nat} (h : i < values.length) : index sequence (int i) = .ok values[i]
  /-- There is none under any other index. -/
  outside {i : Int} (h : i < 0 ∨ values.length ≤ i) : index sequence (int i) = .ok null

theorem isSequence_list (items : List Datum) : IsSequence (list items) items where
  visits := visits_iff rfl
  len := rfl
  length := rfl
  inside h := congrArg Except.ok (itemAt_natCast items h)
  outside h := congrArg Except.ok (itemAt_of_outside items h)

theorem isSequence_text (s : String) : IsSequence (text s) (s.toList.map ofChar) where
  visits := visits_iff rfl
  len := by rw [List.length_map]; rfl
  length := by rw [List.length_map]; rfl
  inside h := congrArg Except.ok (itemAt_natCast _ h)
  outside h := congrArg Except.ok (itemAt_of_outside _ h)

theorem apply_join_chars (s : String) :
    apply .join [list (s.toList.map ofChar), text ""] = .ok (text s) := by
  have hchars : s.toList.map ofChar = (s.toList.map String.singleton).map text := by
    rw [List.map_map]
    rfl
  rw [hchars, apply_join, intercalate_singletons]

/-! ### Maps -/

variable {entries : List (Datum × Datum)}

theorem mapOfPairs_eq (entries acc : List (Datum × Datum)) :
    mapOfPairs acc (entryPairs entries) =
      .ok (map (entries.foldl (fun acc e => Association.insert same e.1 e.2 acc) acc)) := by
  induction entries generalizing acc with
  | nil => rfl
  | cons e rest ih =>
    have hstep : mapOfPairs acc (entryPairs (e :: rest)) =
        mapOfPairs (insertEntry e.1 e.2 acc) (entryPairs rest) := rfl
    rw [hstep, ih, insertEntry_eq, List.foldl_cons]

/-- A map whose keys differ is the map of its entries. -/
theorem mapOfPairs_entryPairs (h : Association.Differ same entries) :
    mapOfPairs [] (entryPairs entries) = .ok (map entries) := by
  rw [mapOfPairs_eq, Association.foldl_insert_of_differ h]
  rfl

/-- Any key that equals that of an entry leads to its value. -/
theorem valueAt?_of_same (h : Association.Differ same entries) {e : Datum × Datum} (he : e ∈ entries)
    {key : Datum} (hkey : e.1.same key = true) : valueAt? key entries = some e.2 := by
  rw [valueAt?_eq, ← Association.find?_congr isKeyTest_same hkey,
    Association.find?_of_mem isKeyTest_same h he]

theorem valueAt?_of_differs {key : Datum} (h : ∀ e ∈ entries, e.1.same key = false) :
    valueAt? key entries = none := by
  rw [valueAt?_eq, Association.find?_eq_none h]

/-- The first slots of the entries are the keys. -/
theorem mapM_member_entryPairs (entries : List (Datum × Datum)) :
    (entryPairs entries).mapM (fun p => member p "K1") = .ok (entries.map (·.1)) := by
  rw [Traversal.mapM_eq_ok_iff, entryPairs, List.forall₂_map_left_iff, List.forall₂_map_right_iff,
    List.forall₂_same]
  exact fun _ _ => rfl

/-! ### All views -/

/-- The views of a sequence agree.  For a string and for a list, a loop, the lengths and the indices
show the same values; a string is split into them at the empty string, and they are joined to it.  For
a map, a loop and the listed entries show the same pairs, the first slots of these are the keys, and all
lengths count them.  If the keys of a map differ, then it is the map of these pairs, each key leads to
the value of its entry, and any other to null. -/
theorem views_agree :
    (∀ s : String, ∃ values, IsSequence (text s) values ∧
      apply .split [text s, text ""] = .ok (list values) ∧
      apply .join [list values, text ""] = .ok (text s)) ∧
    (∀ items : List Datum, IsSequence (list items) items) ∧
    ∀ entries : List (Datum × Datum), ∃ pairs keys,
      (∀ others, Visits (map entries) others ↔ others = pairs) ∧
      apply .entries [map entries] = .ok (list pairs) ∧
      apply .keys [map entries] = .ok (list keys) ∧
      pairs.mapM (fun p => member p "K1") = .ok keys ∧
      apply .len [map entries] = .ok (int pairs.length) ∧
      member (map entries) "length" = .ok (int pairs.length) ∧
      member (map entries) "size" = .ok (int pairs.length) ∧
      (Association.Differ same entries →
        apply .toMap [list pairs] = .ok (map entries) ∧
        (∀ e ∈ entries, ∀ key, e.1.same key = true →
          index (map entries) key = .ok e.2 ∧ apply .get [map entries, key] = .ok e.2) ∧
        ∀ key, (∀ e ∈ entries, e.1.same key = false) →
          index (map entries) key = .ok null ∧ apply .get [map entries, key] = .ok null) := by
  refine ⟨fun s => ⟨s.toList.map ofChar, isSequence_text s, rfl, apply_join_chars s⟩,
    isSequence_list, fun entries => ⟨entryPairs entries, entries.map (·.1), visits_iff rfl, rfl, rfl,
      mapM_member_entryPairs entries, ?_, ?_, ?_, fun hdiffer => ⟨?_, ?_, ?_⟩⟩⟩
  · rw [entryPairs, List.length_map]
    rfl
  · rw [entryPairs, List.length_map]
    rfl
  · rw [entryPairs, List.length_map]
    rfl
  · exact mapOfPairs_entryPairs hdiffer
  · intro e he key hkey
    have hvalue := valueAt?_of_same hdiffer he hkey
    rw [index, apply, hvalue]
    exact ⟨rfl, rfl⟩
  · intro key hkey
    have hvalue := valueAt?_of_differs hkey
    rw [index, apply, hvalue]
    exact ⟨rfl, rfl⟩

end Polyglot.Script.Datum
