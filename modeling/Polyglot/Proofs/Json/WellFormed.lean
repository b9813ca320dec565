import Mathlib.Tactic.SplitIfs
import Polyglot.Json.Basic
import Polyglot.Text.Integer

/-!
# Well-formed JSON values

A value of the program has its keys in ascending order and its integers within 64 bits
(`Json.WellFormed`).  The order is what insertion keeps (`Fields.ascending_insert`), and fields that
ascend already are what inserting them one after another gives (`Fields.ofList_of_ascending`).
-/

namespace Polyglot.Json

/-! ### Fields in order -/

namespace Fields

variable {α : Type}

/-- Whether keys ascend, and so are different. -/
def Ascending (fields : Fields α) : Prop := fields.Pairwise (·.1 < ·.1)

theorem ascending_iff {fields : Fields α} :
    fields.Ascending ↔ (fields.map (·.1)).Pairwise (· < ·) :=
  List.pairwise_map.symm

/-- Fields with the given keys, whatever their values are. -/
theorem ascending_of_keys {fields : Fields α} (keys : List String)
    (h : fields.map (·.1) = keys) (hk : keys.Pairwise (· < ·)) : fields.Ascending :=
  ascending_iff.mpr (h ▸ hk)

/-- The order of fields is that of their keys. -/
theorem ascending_congr {β : Type} {fields : Fields α} {others : Fields β}
    (h : fields.map (·.1) = others.map (·.1)) : fields.Ascending ↔ others.Ascending := by
  rw [ascending_iff, ascending_iff, h]

theorem mem_insert {fields : Fields α} {key : String} {value : α} {field : String × α}
    (h : field ∈ fields.insert key value) : field = (key, value) ∨ field ∈ fields := by
  induction fields with
  | nil => exact .inl (List.mem_singleton.mp h)
  | cons first rest ih =>
    obtain ⟨k, v⟩ := first
    unfold insert at h
    split_ifs at h
    · rcases List.mem_cons.mp h with h | h
      · exact .inl h
      · exact .inr (List.mem_cons_of_mem _ h)
    · rcases List.mem_cons.mp h with h | h
      · exact .inl h
      · exact .inr h
    · rcases List.mem_cons.mp h with h | h
      · exact .inr (h ▸ List.mem_cons_self)
      · exact (ih h).imp id (List.mem_cons_of_mem _)

theorem ascending_insert {fields : Fields α} (h : fields.Ascending) (key : String) (value : α) :
    (fields.insert key value).Ascending := by
  induction fields with
  | nil => exact List.pairwise_singleton ..
  | cons first rest ih =>
    obtain ⟨k, v⟩ := first
    obtain ⟨hk, hrest⟩ := List.pairwise_cons.mp h
    unfold insert
    split_ifs with he hlt
    · subst he
      exact List.pairwise_cons.mpr ⟨hk, hrest⟩
    · refine List.pairwise_cons.mpr ⟨fun f hf => ?_, h⟩
      rcases List.mem_cons.mp hf with rfl | hf
      · exact hlt
      · exact String.lt_trans hlt (hk f hf)
    · refine List.pairwise_cons.mpr ⟨fun f hf => ?_, ih hrest⟩
      rcases mem_insert hf with rfl | hf
      · exact Std.lt_of_le_of_ne (String.not_lt.mp hlt) (Ne.symm he)
      · exact hk f hf

/-- A field with the greatest key goes to the end. -/
theorem insert_eq_append {fields : Fields α} {key : String} (value : α)
    (h : ∀ f ∈ fields, f.1 < key) : fields.insert key value = fields ++ [(key, value)] := by
  induction fields with
  | nil => rfl
  | cons first rest ih =>
    obtain ⟨k, v⟩ := first
    have hk : k < key := h (k, v) List.mem_cons_self
    have hne : key ≠ k := fun he => String.lt_irrefl k (he ▸ hk)
    rw [insert, if_neg hne, if_neg (String.lt_asymm hk),
      ih fun f hf => h f (List.mem_cons_of_mem _ hf)]
    rfl

theorem mem_ofList {fields : List (String × α)} {field : String × α}
    (h : field ∈ Fields.ofList fields) : field ∈ fields := by
  -- The fold starts with no fields, so its invariant is stated for any it starts with.
  suffices hfold : ∀ acc : Fields α,
      field ∈ fields.foldl (fun acc f => acc.insert f.1 f.2) acc → field ∈ acc ∨ field ∈ fields by
    simpa using hfold [] h
  clear h
  induction fields with
  | nil => exact fun acc h => .inl h
  | cons first rest ih =>
    intro acc h
    rcases ih _ h with h | h
    · rcases mem_insert h with rfl | h
      · exact .inr List.mem_cons_self
      · exact .inl h
    · exact .inr (List.mem_cons_of_mem _ h)

theorem ascending_foldl_insert (fields : List (String × α)) {acc : Fields α}
    (h : acc.Ascending) : Ascending (fields.foldl (fun acc f => acc.insert f.1 f.2) acc) := by
  induction fields generalizing acc with
  | nil => exact h
  | cons first rest ih => exact ih (ascending_insert h first.1 first.2)

theorem ascending_ofList (fields : List (String × α)) : (Fields.ofList fields).Ascending :=
  ascending_foldl_insert fields List.Pairwise.nil

/-- Fields in order are what inserting them one after another gives. -/
theorem ofList_of_ascending {fields : Fields α} (h : fields.Ascending) :
    Fields.ofList fields = fields := by
  suffices hfold : ∀ acc : Fields α, Ascending (acc ++ fields) →
      fields.foldl (fun acc f => acc.insert f.1 f.2) acc = acc ++ fields from hfold [] h
  clear h
  induction fields with
  | nil => exact fun acc _ => (List.append_nil acc).symm
  | cons first rest ih =>
    intro acc h
    obtain ⟨k, v⟩ := first
    -- What is inserted next comes after all that has been.
    have hlt : ∀ f ∈ acc, f.1 < k := fun f hf =>
      (List.pairwise_append.mp h).2.2 f hf (k, v) List.mem_cons_self
    rw [List.foldl_cons]
    show List.foldl _ (insert k v acc) rest = _
    rw [insert_eq_append v hlt, ih _ (by rwa [List.append_assoc]), List.append_assoc]
    rfl

/-! ### A field before others -/

theorem insert_cons (key k : String) (value v : α) (rest : Fields α) :
    insert key value ((k, v) :: rest) =
      if key = k then (key, value) :: rest
      else if key < k then (key, value) :: (k, v) :: rest
      else (k, v) :: insert key value rest :=
  rfl

theorem erase_cons (key k : String) (v : α) (rest : Fields α) :
    erase ((k, v) :: rest) key = if k = key then rest.erase key else (k, v) :: rest.erase key := by
  unfold erase
  rw [List.filter_cons]
  split_ifs <;> simp_all

theorem erase_insert_of_ne {fields : Fields α} (h : fields.Ascending) {key other : String}
    (hne : key ≠ other) (value : α) :
    (fields.insert key value).erase other = (fields.erase other).insert key value := by
  induction fields with
  | nil => simp [insert, erase, hne]
  | cons first rest ih =>
    obtain ⟨k, v⟩ := first
    obtain ⟨hk, hrest⟩ := List.pairwise_cons.mp h
    rw [insert_cons]
    split_ifs with he hlt
    · subst he
      rw [erase_cons, erase_cons, if_neg hne, if_neg hne, insert_cons, if_pos rfl]
    · rw [erase_cons, if_neg hne]
      by_cases ho : k = other
      · rw [erase_cons, if_pos ho]
        -- All that is left lies behind the key.
        cases hr : erase rest other with
        | nil => rfl
        | cons f fs =>
          obtain ⟨l, w⟩ := f
          have hmem : (l, w) ∈ erase rest other := hr ▸ List.mem_cons_self
          have hkl : key < l := String.lt_trans hlt (hk _ (List.mem_filter.mp hmem).1)
          have hne' : key ≠ l := fun heq => String.lt_irrefl l (heq ▸ hkl)
          rw [insert_cons, if_neg hne', if_pos hkl]
      · rw [erase_cons, if_neg ho, insert_cons, if_neg he, if_pos hlt]
    · rw [erase_cons, erase_cons, ih hrest]
      by_cases ho : k = other
      · rw [if_pos ho, if_pos ho]
      · rw [if_neg ho, if_neg ho, insert_cons, if_neg he, if_neg hlt]

theorem erase_insert_self (fields : Fields α) (key : String) (value : α) :
    (fields.insert key value).erase key = fields.erase key := by
  induction fields with
  | nil => simp [insert, erase]
  | cons first rest ih =>
    obtain ⟨k, v⟩ := first
    rw [insert_cons]
    split_ifs with he hlt
    · rw [erase_cons, erase_cons, if_pos rfl, if_pos he.symm]
    · rw [erase_cons, if_pos rfl]
    · rw [erase_cons, erase_cons, ih]

/-! ### Fields one after another -/

/-- Inserting fields with other keys keeps a field. -/
theorem find?_foldl_insert {fields : List (String × α)} {key : String}
    (hno : ∀ f ∈ fields, f.1 ≠ key) (acc : Fields α) :
    find? (fields.foldl (fun acc f => acc.insert f.1 f.2) acc) key = acc.find? key := by
  induction fields generalizing acc with
  | nil => rfl
  | cons first rest ih =>
    obtain ⟨hfirst, hrest⟩ := List.forall_mem_cons.mp hno
    rw [List.foldl_cons, ih hrest, find?_insert, if_neg hfirst]

/-- Without the field under a key there is left what the insertions under other keys make. -/
theorem erase_foldl_insert (fields : List (String × α)) (key : String) {acc : Fields α}
    (h : acc.Ascending) : erase (fields.foldl (fun acc f => acc.insert f.1 f.2) acc) key =
      (fields.filter (·.1 ≠ key)).foldl (fun acc f => acc.insert f.1 f.2) (acc.erase key) := by
  induction fields generalizing acc with
  | nil => rfl
  | cons first rest ih =>
    rw [List.foldl_cons, ih (ascending_insert h first.1 first.2)]
    by_cases hkey : first.1 = key
    · rw [List.filter_cons_of_neg (by simpa using hkey), hkey, erase_insert_self]
    · rw [List.filter_cons_of_pos (by simpa using hkey), List.foldl_cons,
        erase_insert_of_ne h hkey]

/-- A field under a new key is added, wherever its place is. -/
theorem perm_insert {fields : Fields α} {key : String} (value : α) (hno : ∀ f ∈ fields, f.1 ≠ key) :
    (fields.insert key value).Perm ((key, value) :: fields) := by
  induction fields with
  | nil => exact List.Perm.refl _
  | cons first rest ih =>
    obtain ⟨k, v⟩ := first
    obtain ⟨hfirst, hrest⟩ := List.forall_mem_cons.mp hno
    rw [insert_cons, if_neg (Ne.symm hfirst)]
    split_ifs
    · exact List.Perm.refl _
    · exact ((ih hrest).cons (k, v)).trans (List.Perm.swap ..)

/-- Fields with different keys are all there after they were inserted one after another. -/
theorem perm_ofList {fields : List (String × α)} (h : fields.Pairwise (·.1 ≠ ·.1)) :
    (ofList fields).Perm fields := by
  suffices hfold : ∀ acc : Fields α, List.Pairwise (·.1 ≠ ·.1) (acc ++ fields) →
      List.Perm (fields.foldl (fun acc f => insert f.1 f.2 acc) acc) (acc ++ fields) from hfold [] h
  clear h
  induction fields with
  | nil => exact fun acc _ => by rw [List.append_nil]; exact List.Perm.refl _
  | cons first rest ih =>
    intro acc h
    have hno : ∀ f ∈ acc, f.1 ≠ first.1 := fun f hf =>
      (List.pairwise_append.mp h).2.2 f hf first List.mem_cons_self
    have hinsert : (insert first.1 first.2 acc ++ rest).Perm (acc ++ first :: rest) :=
      ((perm_insert first.2 hno).append_right rest).trans List.perm_middle.symm
    exact (ih _ (h.perm hinsert.symm fun hne => hne.symm)).trans hinsert

/-- Inserting fields with other keys after one keeps that one. -/
theorem find?_ofList_cons {fields : List (String × α)} {key : String} (value : α)
    (hno : ∀ f ∈ fields, f.1 ≠ key) : (ofList ((key, value) :: fields)).find? key = some value := by
  rw [ofList, List.foldl_cons, find?_foldl_insert hno]
  simp [insert, find?]

/-- Without the first field the others are left. -/
theorem erase_ofList_cons {fields : List (String × α)} {key : String} (value : α)
    (hno : ∀ f ∈ fields, f.1 ≠ key) : (ofList ((key, value) :: fields)).erase key = ofList fields := by
  have hrest : fields.filter (·.1 ≠ key) = fields := List.filter_eq_self.mpr (by simpa using hno)
  rw [ofList, List.foldl_cons, erase_foldl_insert _ _ (ascending_insert List.Pairwise.nil key value),
    hrest, erase_insert_self]
  rfl

/-! ### Fields that are found -/

theorem find?_of_mem {fields : Fields α} (h : fields.Ascending) {field : String × α}
    (hf : field ∈ fields) : fields.find? field.1 = some field.2 := by
  induction fields with
  | nil => cases hf
  | cons first rest ih =>
    obtain ⟨hfirst, hrest⟩ := List.pairwise_cons.mp h
    rw [find?]
    rcases List.mem_cons.mp hf with rfl | hf
    · exact if_pos rfl
    · -- The keys behind the first are greater.
      have hne : first.1 ≠ field.1 := fun heq => String.lt_irrefl _ (heq ▸ hfirst field hf)
      rw [if_neg hne, ih hrest hf]

theorem nodup_keys {fields : Fields α} (h : fields.Ascending) : (fields.map (·.1)).Nodup := by
  rw [List.nodup_iff_pairwise_ne, List.pairwise_map]
  refine h.imp fun hlt heq => ?_
  rw [heq] at hlt
  exact String.lt_irrefl _ hlt

/-- Fields with the same different keys in the same order are told by what they make. -/
theorem ofList_inj {fields others : List (String × α)}
    (hkeys : fields.map (·.1) = others.map (·.1)) (hnodup : (fields.map (·.1)).Nodup)
    (h : ofList fields = ofList others) : fields = others := by
  have hperm : fields.Perm others := by
    have hfields := perm_ofList (List.pairwise_map.mp hnodup)
    rw [h] at hfields
    exact hfields.symm.trans (perm_ofList (List.pairwise_map.mp (hkeys ▸ hnodup)))
  clear h
  induction fields generalizing others with
  | nil => exact (List.map_eq_nil_iff.mp hkeys.symm).symm
  | cons first rest ih =>
    cases others with
    | nil => cases hkeys
    | cons other others =>
      obtain ⟨k, v⟩ := first
      obtain ⟨l, w⟩ := other
      obtain ⟨hk, hrest⟩ := List.cons.inj hkeys
      obtain rfl : k = l := hk
      obtain ⟨hno, hnodup⟩ := List.nodup_cons.mp hnodup
      -- The first field has its key for itself.
      have hvw : v = w := by
        rcases List.mem_cons.mp (hperm.mem_iff.mp List.mem_cons_self) with hvw | hmem
        · exact (Prod.mk.inj hvw).2
        · exact absurd (hrest ▸ List.mem_map_of_mem (f := (·.1)) hmem) hno
      subst hvw
      rw [ih hrest hnodup (List.perm_cons _ |>.mp hperm)]

end Fields

/-! ### Well-formed values -/

/-- Whether an integer has 64 bits, signed or not. -/
def Number.Fits : Number → Prop
  | .int n => Text.minInt64 ≤ n ∧ n ≤ Text.maxNat64
  | .double _ => True

/-- What holds of every JSON value of the program: keys ascend and integers have 64 bits. -/
inductive WellFormed : Json → Prop where
  | null : WellFormed null
  | bool (b : Bool) : WellFormed (bool b)
  | num {n : Number} (h : n.Fits) : WellFormed (num n)
  | str (s : String) : WellFormed (str s)
  | arr {items : List Json} (h : ∀ x ∈ items, WellFormed x) : WellFormed (arr items)
  | obj {fields : Fields Json} (hk : fields.Ascending) (h : ∀ f ∈ fields, WellFormed f.2) :
    WellFormed (obj fields)

namespace WellFormed

theorem object {fields : List (String × Json)} (h : ∀ f ∈ fields, WellFormed f.2) :
    WellFormed (Json.object fields) :=
  obj (Fields.ascending_ofList fields) fun f hf => h f (Fields.mem_ofList hf)

end WellFormed

instance (n : Number) : Decidable n.Fits :=
  match n with
  | .int n => inferInstanceAs (Decidable (Text.minInt64 ≤ n ∧ n ≤ Text.maxNat64))
  | .double _ => inferInstanceAs (Decidable True)

mutual

/-- Tests whether a value is well-formed. -/
def isWellFormed : Json → Bool
  | num n => n.Fits
  | arr xs => areWellFormedItems xs
  | obj xs => decide (xs.Pairwise (·.1 < ·.1)) && areWellFormedFields xs
  | _ => true

/-- Tests whether the items are well-formed. -/
def areWellFormedItems : List Json → Bool
  | [] => true
  | x :: xs => isWellFormed x && areWellFormedItems xs

/-- Tests whether the values of the fields are well-formed. -/
def areWellFormedFields : List (String × Json) → Bool
  | [] => true
  | (_, x) :: xs => isWellFormed x && areWellFormedFields xs

end

mutual

theorem isWellFormed_iff (j : Json) : isWellFormed j = true ↔ j.WellFormed := by
  cases j with
  | null => exact iff_of_true rfl .null
  | bool b => exact iff_of_true rfl (.bool b)
  | str s => exact iff_of_true rfl (.str s)
  | num n =>
    rw [isWellFormed, decide_eq_true_eq]
    exact ⟨.num, fun h => by cases h; assumption⟩
  | arr xs =>
    rw [isWellFormed, areWellFormedItems_iff]
    exact ⟨.arr, fun h => by cases h; assumption⟩
  | obj xs =>
    rw [isWellFormed, Bool.and_eq_true, decide_eq_true_eq, areWellFormedFields_iff]
    exact ⟨fun h => .obj h.1 h.2, fun h => by cases h; exact ⟨‹_›, ‹_›⟩⟩

theorem areWellFormedItems_iff (xs : List Json) :
    areWellFormedItems xs = true ↔ ∀ x ∈ xs, WellFormed x := by
  cases xs with
  | nil => simp [areWellFormedItems]
  | cons x xs =>
    rw [areWellFormedItems, Bool.and_eq_true, isWellFormed_iff x, areWellFormedItems_iff xs,
      List.forall_mem_cons]

theorem areWellFormedFields_iff (xs : List (String × Json)) :
    areWellFormedFields xs = true ↔ ∀ f ∈ xs, WellFormed f.2 := by
  cases xs with
  | nil => simp [areWellFormedFields]
  | cons x xs =>
    obtain ⟨k, x⟩ := x
    rw [areWellFormedFields, Bool.and_eq_true, isWellFormed_iff x, areWellFormedFields_iff xs,
      List.forall_mem_cons]

end

instance (j : Json) : Decidable j.WellFormed := decidable_of_iff _ (isWellFormed_iff j)

/-! ### Numbers in a value -/

mutual

/-- The numbers in a value. -/
def numbers : Json → List Number
  | num n => [n]
  | arr xs => numbersOfItems xs
  | obj xs => numbersOfFields xs
  | _ => []

/-- The numbers in the items. -/
def numbersOfItems : List Json → List Number
  | [] => []
  | x :: xs => numbers x ++ numbersOfItems xs

/-- The numbers in the fields. -/
def numbersOfFields : List (String × Json) → List Number
  | [] => []
  | (_, x) :: xs => numbers x ++ numbersOfFields xs

end

mutual

/-- The numbers in a well-formed value fit. -/
theorem WellFormed.fits : ∀ {j : Json}, j.WellFormed → ∀ n ∈ j.numbers, n.Fits
  | .null, _ | .bool _, _ | .str _, _ => by simp [numbers]
  | .num n, .num h => by simpa [numbers] using h
  | .arr xs, .arr h => by
    rw [numbers]
    exact fits_of_items h
  | .obj xs, .obj _ h => by
    rw [numbers]
    exact fits_of_fields h

theorem fits_of_items : ∀ {xs : List Json}, (∀ x ∈ xs, x.WellFormed) →
    ∀ n ∈ numbersOfItems xs, n.Fits
  | [], _ => by simp [numbersOfItems]
  | x :: xs, h => by
    obtain ⟨hx, hxs⟩ := List.forall_mem_cons.mp h
    rw [numbersOfItems, List.forall_mem_append]
    exact ⟨hx.fits, fits_of_items hxs⟩

theorem fits_of_fields : ∀ {xs : List (String × Json)}, (∀ x ∈ xs, x.2.WellFormed) →
    ∀ n ∈ numbersOfFields xs, n.Fits
  | [], _ => by simp [numbersOfFields]
  | (k, x) :: xs, h => by
    obtain ⟨hx, hxs⟩ := List.forall_mem_cons.mp h
    rw [numbersOfFields, List.forall_mem_append]
    exact ⟨hx.fits, fits_of_fields hxs⟩

end

end Polyglot.Json
