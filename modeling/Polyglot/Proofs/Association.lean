import Mathlib.Data.List.Basic
import Mathlib.Data.List.Induction
import Mathlib.Tactic.Set
import Mathlib.Tactic.SplitIfs

/-!
# Association lists by a test of keys

Insertion under a key that the test takes for one that is there replaces the value and keeps the
place; any other key goes to the end.  If the test is an equivalence, then after any insertions no
two keys are equal (`differ_ofList`), the keys stand in the order of their first insertion
(`keys_ofList`), and each key has the value of its last insertion (`find?_ofList`).
-/

namespace Polyglot.Association

variable {κ ν : Type} (eq : κ → κ → Bool)

/-- Puts a value under a key: in the place of the first equal key, or at the end. -/
def insert (key : κ) (value : ν) : List (κ × ν) → List (κ × ν)
  | [] => [(key, value)]
  | (k, v) :: rest => if eq k key then (k, value) :: rest else (k, v) :: insert key value rest

/-- The value under the first key equal to the given one. -/
def find? (key : κ) : List (κ × ν) → Option ν
  | [] => none
  | (k, v) :: rest => if eq k key then some v else find? key rest

/-- The association list that values put under their keys one after another give. -/
def ofList (inserts : List (κ × ν)) : List (κ × ν) :=
  inserts.foldl (fun acc e => insert eq e.1 e.2 acc) []

/-- Whether a test of keys is an equivalence. -/
abbrev IsKeyTest : Prop := Equivalence fun a b => eq a b = true

variable {eq}

theorem IsKeyTest.congr_left (h : IsKeyTest eq) {a b : κ} (hab : eq a b = true) (c : κ) :
    eq a c = eq b c :=
  Bool.eq_iff_iff.mpr ⟨h.trans (h.symm hab), h.trans hab⟩

theorem IsKeyTest.congr_right (h : IsKeyTest eq) {a b : κ} (hab : eq a b = true) (c : κ) :
    eq c a = eq c b :=
  Bool.eq_iff_iff.mpr ⟨fun hca => h.trans hca hab, fun hcb => h.trans hcb (h.symm hab)⟩

/-- Equal keys lead to the same value. -/
theorem find?_congr (h : IsKeyTest eq) {a b : κ} (hab : eq a b = true) (entries : List (κ × ν)) :
    find? eq a entries = find? eq b entries := by
  induction entries with
  | nil => rfl
  | cons e rest ih =>
    obtain ⟨k, v⟩ := e
    rw [find?, find?, h.congr_right hab, ih]

/-! ### One insertion -/

theorem find?_insert (h : IsKeyTest eq) (key other : κ) (value : ν) (entries : List (κ × ν)) :
    find? eq other (insert eq key value entries) =
      if eq key other then some value else find? eq other entries := by
  induction entries with
  | nil => rfl
  | cons e rest ih =>
    obtain ⟨k, v⟩ := e
    rw [insert]
    by_cases hk : eq k key = true
    · rw [if_pos hk, find?, find?, h.congr_left hk]
      split_ifs <;> rfl
    · rw [if_neg hk, find?, find?, ih]
      split_ifs with hother hkey
      -- A key cannot equal both of two keys that differ.
      · exact absurd (h.trans hother (h.symm hkey)) hk
      · rfl
      · rfl
      · rfl

theorem keys_insert (key : κ) (value : ν) (entries : List (κ × ν)) :
    (insert eq key value entries).map (·.1) =
      if entries.any (fun e => eq e.1 key) then entries.map (·.1)
      else entries.map (·.1) ++ [key] := by
  induction entries with
  | nil => rfl
  | cons e rest ih =>
    obtain ⟨k, v⟩ := e
    rw [insert, List.any_cons]
    by_cases hk : eq k key = true
    · simp [hk]
    · rw [if_neg hk, List.map_cons, ih]
      simp only [hk, Bool.false_or]
      split_ifs <;> rfl

/-- Whether no two keys are equal. -/
def Differ (eq : κ → κ → Bool) (entries : List (κ × ν)) : Prop :=
  entries.Pairwise fun e f => eq e.1 f.1 = false

theorem differ_insert {entries : List (κ × ν)} (h : Differ eq entries) (key : κ) (value : ν) :
    Differ eq (insert eq key value entries) := by
  unfold Differ at h ⊢
  rw [← List.pairwise_map (f := Prod.fst) (R := fun a b => eq a b = false)] at h ⊢
  rw [keys_insert]
  split_ifs with hany
  · exact h
  · refine List.pairwise_append.mpr ⟨h, List.pairwise_singleton _ _, fun a ha b hb => ?_⟩
    obtain ⟨e, he, rfl⟩ := List.mem_map.mp ha
    rw [List.mem_singleton.mp hb]
    simp only [List.any_eq_true, not_exists, not_and, Bool.not_eq_true] at hany
    exact hany e he

/-- What holds of all keys and of all values goes on with an insertion. -/
theorem forall_insert {P : κ → Prop} {R : ν → Prop} {key : κ} {value : ν} {entries : List (κ × ν)}
    (h : ∀ e ∈ entries, P e.1 ∧ R e.2) (hk : P key) (hv : R value) :
    ∀ e ∈ insert eq key value entries, P e.1 ∧ R e.2 := by
  induction entries with
  | nil => exact List.forall_mem_cons.mpr ⟨⟨hk, hv⟩, h⟩
  | cons e rest ih =>
    obtain ⟨k, v⟩ := e
    obtain ⟨hfirst, hrest⟩ := List.forall_mem_cons.mp h
    rw [insert]
    split
    -- A key that is there keeps its form and gets the new value.
    · exact List.forall_mem_cons.mpr ⟨⟨hfirst.1, hv⟩, hrest⟩
    · exact List.forall_mem_cons.mpr ⟨hfirst, ih hrest⟩

theorem find?_isSome (key : κ) (entries : List (κ × ν)) :
    (find? eq key entries).isSome = entries.any fun e => eq e.1 key := by
  induction entries with
  | nil => rfl
  | cons e rest ih =>
    obtain ⟨k, v⟩ := e
    rw [find?, List.any_cons]
    split_ifs with hk
    · rw [hk, Option.isSome_some, Bool.true_or]
    · rw [ih, Bool.eq_false_iff.mpr hk, Bool.false_or]

/-- What is in an association list whose keys differ is found under its key. -/
theorem find?_of_mem (h : IsKeyTest eq) {entries : List (κ × ν)} (hdiffer : Differ eq entries)
    {e : κ × ν} (he : e ∈ entries) : find? eq e.1 entries = some e.2 := by
  induction entries with
  | nil => cases he
  | cons first rest ih =>
    obtain ⟨hfirst, hrest⟩ := List.pairwise_cons.mp hdiffer
    rw [find?]
    rcases List.mem_cons.mp he with rfl | he
    · rw [if_pos (h.refl _)]
    · rw [if_neg (by simp [hfirst e he]), ih hrest he]

theorem find?_eq_none {key : κ} {entries : List (κ × ν)} (h : ∀ e ∈ entries, eq e.1 key = false) :
    find? eq key entries = none := by
  rw [← Option.not_isSome_iff_eq_none, find?_isSome, List.any_eq_true]
  rintro ⟨e, he, hkey⟩
  rw [h e he] at hkey
  cases hkey

/-- A key that differs from all others goes to the end. -/
theorem insert_eq_append {key : κ} {entries : List (κ × ν)} (value : ν)
    (h : ∀ e ∈ entries, eq e.1 key = false) :
    insert eq key value entries = entries ++ [(key, value)] := by
  induction entries with
  | nil => rfl
  | cons e rest ih =>
    obtain ⟨k, v⟩ := e
    obtain ⟨hk, hrest⟩ := List.forall_mem_cons.mp h
    rw [insert, if_neg (by rw [hk]; decide), ih hrest]
    rfl

/-! ### Insertions one after another -/

/-- Entries whose keys differ are what inserting them one after another gives. -/
theorem foldl_insert_of_differ {entries acc : List (κ × ν)} (h : Differ eq (acc ++ entries)) :
    entries.foldl (fun acc e => insert eq e.1 e.2 acc) acc = acc ++ entries := by
  induction entries generalizing acc with
  | nil => exact (List.append_nil acc).symm
  | cons e rest ih =>
    -- No key that is inserted already equals the next one, so this goes to the end.
    have hkey : ∀ f ∈ acc, eq f.1 e.1 = false := fun f hf =>
      (List.pairwise_append.mp h).2.2 f hf e List.mem_cons_self
    rw [List.foldl_cons, insert_eq_append e.2 hkey, ih (by rwa [List.append_assoc]),
      List.append_assoc]
    rfl

theorem ofList_concat (inserts : List (κ × ν)) (e : κ × ν) :
    ofList eq (inserts ++ [e]) = insert eq e.1 e.2 (ofList eq inserts) := by
  rw [ofList, List.foldl_append]
  rfl

theorem differ_ofList (inserts : List (κ × ν)) : Differ eq (ofList eq inserts) := by
  induction inserts using List.reverseRecOn with
  | nil => exact List.Pairwise.nil
  | append_singleton inserts e ih =>
    rw [ofList_concat]
    exact differ_insert ih e.1 e.2

theorem forall_ofList {P : κ → Prop} {R : ν → Prop} {inserts : List (κ × ν)}
    (h : ∀ e ∈ inserts, P e.1 ∧ R e.2) : ∀ e ∈ ofList eq inserts, P e.1 ∧ R e.2 := by
  induction inserts using List.reverseRecOn with
  | nil => exact h
  | append_singleton inserts e ih =>
    obtain ⟨hinserts, he⟩ := List.forall_mem_append.mp h
    rw [ofList_concat]
    exact forall_insert (ih hinserts) (he e (List.mem_singleton_self e)).1
      (he e (List.mem_singleton_self e)).2

/-- The value under a key is that of the last insertion under an equal key. -/
theorem find?_ofList (h : IsKeyTest eq) (key : κ) (inserts : List (κ × ν)) :
    find? eq key (ofList eq inserts) = find? eq key inserts.reverse := by
  induction inserts using List.reverseRecOn with
  | nil => rfl
  | append_singleton inserts e ih =>
    rw [ofList_concat, find?_insert h, ih, List.reverse_append]
    rfl

/-- A key is there when one that equals it was inserted. -/
theorem any_ofList (h : IsKeyTest eq) (key : κ) (inserts : List (κ × ν)) :
    ((ofList eq inserts).any fun e => eq e.1 key) = inserts.any fun e => eq e.1 key := by
  rw [← find?_isSome, find?_ofList h, find?_isSome, List.any_reverse]

/-- A key at the end of a list stays if it equals none before. -/
theorem eraseDupsBy_concat (h : IsKeyTest eq) (keys : List κ) (key : κ) :
    (keys ++ [key]).eraseDupsBy (fun a b => eq b a) =
      if keys.any (fun k => eq k key) then keys.eraseDupsBy fun a b => eq b a
      else keys.eraseDupsBy (fun a b => eq b a) ++ [key] := by
  -- The first key strikes all that equal it out of the rest, which is then shorter.
  induction hn : keys.length using Nat.strongRecOn generalizing keys with
  | ind n ih =>
    cases keys with
    | nil => rfl
    | cons k rest =>
      set others := rest.filter fun b => decide (eq k b = false) with hothers
      have hlt : others.length < n := by
        have hle : others.length ≤ rest.length := List.length_filter_le ..
        rw [List.length_cons] at hn
        omega
      rw [List.cons_append, List.eraseDupsBy_cons, List.eraseDupsBy_cons, List.filter_append,
        ← hothers, List.any_cons]
      by_cases hk : eq k key = true
      · simp [hk]
      · have hany : others.any (fun b => eq b key) = rest.any fun b => eq b key := by
          rw [hothers, List.any_filter]
          refine List.any_congr rfl fun b => ?_
          -- A key that is struck out equals the first, so it does not equal the last.
          by_cases hb : eq b key = true
          · have : eq k b = false := by
              rw [Bool.eq_false_iff]
              exact fun hkb => hk (h.trans hkb hb)
            simp [hb, this]
          · simp [hb]
        have hlast : [key].filter (fun b => decide (eq k b = false)) = [key] := by simp [hk]
        rw [hlast, ih _ hlt others rfl, hany]
        simp only [hk, Bool.false_or]
        split_ifs <;> rfl

/-- The keys stand in the order in which each was first inserted. -/
theorem keys_ofList (h : IsKeyTest eq) (inserts : List (κ × ν)) :
    (ofList eq inserts).map (·.1) =
      (inserts.map (·.1)).eraseDupsBy fun a b => eq b a := by
  induction inserts using List.reverseRecOn with
  | nil => rfl
  | append_singleton inserts e ih =>
    rw [ofList_concat, keys_insert, any_ofList h, ih, List.map_append, List.map_singleton,
      eraseDupsBy_concat h, List.any_map]
    rfl

end Polyglot.Association
