import Mathlib
import Polyglot.Proofs.Request.Binding

/-!
# The positions that keys denote

The key of an argument is local, `K` and a decimal numeral, or global, the name of the function and
then a local key.  `Denotes` says which position it is for, in terms of the text of the key alone; no
key is both local and global unless the name is empty (`not_isLocal_of_isGlobal`).

Binding succeeds exactly when all keys denote positions and no two the same, and then puts each value
at the position of its key; otherwise it stops at the first argument whose key has neither form or
denotes the position of an earlier one (`bind_by_position`).
-/

namespace Polyglot.Request

/-! ### Forms of keys -/

/-- Whether a text is `K` and a decimal numeral of a number below `2 ^ 32`. -/
def IsLocal (text : String) (n : Nat) : Prop :=
  ∃ digits : List Char, text.toList = 'K' :: digits ∧ digits ≠ [] ∧
    (∀ c ∈ digits, c.isDigit = true) ∧ Nat.ofDigitChars 10 digits 0 = n ∧ n < 2 ^ 32

/-- Whether a key is the name of a function and then a local key. -/
def IsGlobal (name key : String) (n : Nat) : Prop :=
  ∃ rest, key = name ++ rest ∧ IsLocal rest n

/-- Whether a key of an argument of a function is for a position. -/
def Denotes (name key : String) (n : Nat) : Prop := IsGlobal name key n ∨ IsLocal key n

theorem localPosition?_eq_some_iff {text : String} {n : Nat} :
    localPosition? text.toList = some n ↔ IsLocal text n := by
  constructor
  · intro h
    cases htext : text.toList with
    | nil =>
      rw [htext] at h
      cases h
    | cons c digits =>
      rw [htext] at h
      unfold localPosition? at h
      split at h
      · rename_i ds heq
        obtain ⟨rfl, rfl⟩ := List.cons.inj heq
        obtain ⟨hread, hle⟩ := Option.filter_eq_some_iff.mp h
        obtain ⟨hne, hdigits, hvalue⟩ := readDigits_eq_some_iff.mp hread
        have hle : n ≤ maxPosition := of_decide_eq_true hle
        exact ⟨digits, htext, hne, hdigits, hvalue, Nat.lt_succ_of_le hle⟩
      · cases h
  · rintro ⟨digits, htext, hne, hdigits, hvalue, hlt⟩
    have hle : n ≤ maxPosition := Nat.le_of_lt_succ hlt
    rw [htext, localPosition?, readDigits_eq_some_iff.mpr ⟨hne, hdigits, hvalue⟩]
    exact Option.filter_eq_some_iff.mpr ⟨rfl, decide_eq_true hle⟩

theorem isGlobal_iff {name key : String} {n : Nat} :
    IsGlobal name key n ↔
      (afterPrefix? name.toList key.toList).bind localPosition? = some n := by
  rw [Option.bind_eq_some_iff]
  constructor
  · rintro ⟨rest, rfl, h⟩
    exact ⟨rest.toList, afterPrefix?_eq_some_iff.mpr String.toList_append,
      localPosition?_eq_some_iff.mpr h⟩
  · rintro ⟨rest, hrest, h⟩
    refine ⟨String.ofList rest, ?_, ?_⟩
    · apply String.toList_injective
      rw [String.toList_append, String.toList_ofList]
      exact afterPrefix?_eq_some_iff.mp hrest
    · rw [← localPosition?_eq_some_iff, String.toList_ofList]
      exact h

/-- No key is both global and local: the `K` before its number would be one of its digits. -/
theorem not_isLocal_of_isGlobal {name key : String} (hname : name ≠ "") {n m : Nat}
    (hglobal : IsGlobal name key n) : ¬ IsLocal key m := by
  rintro ⟨digits, hkey, -, hdigits, -⟩
  obtain ⟨rest, rfl, digits', hrest, -⟩ := hglobal
  obtain ⟨c, cs, hcs⟩ : ∃ c cs, name.toList = c :: cs := by
    refine List.exists_cons_of_ne_nil fun h => hname ?_
    exact String.toList_injective h
  rw [String.toList_append, hcs, hrest, List.cons_append] at hkey
  obtain ⟨-, rfl⟩ := List.cons.inj hkey
  have hK := hdigits 'K' (by simp)
  exact absurd hK (by decide)

/-- The position that is read from a key is the one that it denotes. -/
theorem position?_eq_some_iff {name key : String} (hname : name ≠ "") {n : Nat} :
    position? name key = some n ↔ Denotes name key n := by
  rw [position?, Denotes, isGlobal_iff, ← localPosition?_eq_some_iff, Option.or_eq_some_iff]
  refine or_congr_right ⟨fun h => h.2, fun h => ⟨?_, h⟩⟩
  cases hglobal : (afterPrefix? name.toList key.toList).bind localPosition? with
  | none => rfl
  | some m =>
    exact absurd (localPosition?_eq_some_iff.mp h)
      (not_isLocal_of_isGlobal hname (isGlobal_iff.mpr hglobal))

/-! ### All arguments -/

/-- Arguments that are bound to different positions have keys for different positions. -/
theorem Told.pairwise {name : String} (hname : name ≠ "") {args : List Bound}
    {fields : Json.Fields Json} (h : Told name args fields)
    (hne : args.Pairwise fun a b => a.position ≠ b.position) :
    fields.Pairwise fun a b => ∀ n, ¬ (Denotes name a.1 n ∧ Denotes name b.1 n) := by
  have hposition : ∀ b ∈ args, ∀ n, Denotes name b.key n → b.position = n := by
    intro b hb n hn
    have htold := h.position hb
    rw [(position?_eq_some_iff hname).mpr hn] at htold
    exact (Option.some.inj htold).symm
  rw [← h.fields, List.pairwise_map]
  refine hne.imp_of_mem fun {a b} ha hb hab n => ?_
  rintro ⟨hna, hnb⟩
  exact hab ((hposition a ha n hna).trans (hposition b hb n hnb).symm)

/-- What is bound is the fields in another order. -/
theorem Told.of_perm {name : String} {args bound : List Bound} {fields : Json.Fields Json}
    (h : Told name args fields) (hperm : bound.Perm args) :
    (bound.map fun b => (b.key, b.value)).Perm fields ∧
      ∀ b ∈ bound, position? name b.key = some b.position :=
  ⟨h.fields ▸ hperm.map _, fun _ hb => h.position (hperm.mem_iff.mp hb)⟩

/-- A field is refused for what its key denotes. -/
theorem Refused.spec {name : String} (hname : name ≠ "") {earlier : List Bound}
    {before : Json.Fields Json} {field : String × Json} {fault : Fault}
    (h : Refused name earlier field fault) (htold : Told name earlier before) :
    (fault = strayKey name field.1 ∧ ∀ n, ¬ Denotes name field.1 n) ∨
      ∃ b ∈ before, ∃ n, fault = rivalKeys b.1 field.1 n ∧ Denotes name field.1 n ∧
        Denotes name b.1 n := by
  cases h with
  | stray h =>
    refine .inl ⟨rfl, fun n hn => ?_⟩
    rw [(position?_eq_some_iff hname).mpr hn] at h
    cases h
  | @rival b hb h =>
    refine .inr ⟨(b.key, b.value), ?_, b.position, rfl, (position?_eq_some_iff hname).mp h,
      (position?_eq_some_iff hname).mp (htold.position hb)⟩
    rw [← htold.fields]
    exact List.mem_map_of_mem hb

/-- Binding succeeds exactly when each key denotes a position and no two the same one; then each
value stands once, in the order of the positions.  Otherwise the first argument that cannot be bound
is reported: its key denotes no position, or the same as that of an earlier one.  No key denotes a
position in both forms. -/
theorem bind_by_position {name : String} (hname : name ≠ "") (arguments : Json.Fields Json) :
    ((∃ values, bind name arguments = .ok values) ↔
        (∀ a ∈ arguments, ∃ n, Denotes name a.1 n) ∧
          arguments.Pairwise fun a b => ∀ n, ¬ (Denotes name a.1 n ∧ Denotes name b.1 n)) ∧
      (∀ values, bind name arguments = .ok values → ∃ bound : List Bound,
        bound.map (·.value) = values ∧ bound.Pairwise (·.position < ·.position) ∧
          (bound.map fun b => (b.key, b.value)).Perm arguments ∧
          ∀ b ∈ bound, Denotes name b.key b.position) ∧
      (∀ fault, bind name arguments = .error fault →
        ∃ before a after, arguments = before ++ a :: after ∧
          ((fault = strayKey name a.1 ∧ ∀ n, ¬ Denotes name a.1 n) ∨
            ∃ b ∈ before, ∃ n, fault = rivalKeys b.1 a.1 n ∧ Denotes name a.1 n ∧
              Denotes name b.1 n)) ∧
      ∀ key n m, ¬ (IsGlobal name key n ∧ IsLocal key m) := by
  have hforms : ∀ key n m, ¬ (IsGlobal name key n ∧ IsLocal key m) :=
    fun key n m h => not_isLocal_of_isGlobal hname h.1 h.2
  rcases bind_cases name arguments with ⟨args, bound, htold, hbind, hasc, hperm⟩ |
    ⟨before, a, after, args, fault, rfl, htold, hrefused, hbind⟩
  · obtain ⟨hfields, hposition⟩ := htold.of_perm hperm
    have hdenotes : ∀ b ∈ bound, Denotes name b.key b.position := fun b hb =>
      (position?_eq_some_iff hname).mp (hposition b hb)
    refine ⟨iff_of_true ⟨_, hbind⟩ ⟨fun a ha => ?_, ?_⟩, fun values h => ?_, fun fault h => ?_,
      hforms⟩
    · obtain ⟨b, hb, rfl⟩ := List.mem_map.mp (hfields.mem_iff.mpr ha)
      exact ⟨b.position, hdenotes b hb⟩
    · exact htold.pairwise hname ((hasc.imp Nat.ne_of_lt).perm hperm fun hne => hne.symm)
    · obtain rfl := Except.ok.inj (hbind.symm.trans h)
      exact ⟨bound, rfl, hasc, hfields, hdenotes⟩
    · rw [hbind] at h
      cases h
  · have hspec := hrefused.spec hname htold
    refine ⟨iff_of_false ?_ ?_, fun values h => ?_, fun fault' h => ?_, hforms⟩
    · rintro ⟨values, h⟩
      rw [hbind] at h
      cases h
    · rintro ⟨hkeys, hpairs⟩
      rcases hspec with ⟨-, hstray⟩ | ⟨b, hb, n, -, hn, hbn⟩
      · obtain ⟨n, hn⟩ := hkeys a (List.mem_append_right _ List.mem_cons_self)
        exact hstray n hn
      · exact (List.pairwise_append.mp hpairs).2.2 b hb a List.mem_cons_self n ⟨hbn, hn⟩
    · rw [hbind] at h
      cases h
    · obtain rfl := Except.error.inj (hbind.symm.trans h)
      exact ⟨before, a, after, rfl, hspec⟩

/-- The name may look like a key itself, and zeros before a number do not count. -/
theorem bind_by_position_K1 : "K1" ≠ "" ∧
    bind "K1" [("K03", .str "c"), ("K1K10", .str "d"), ("K1K2", .str "b")] =
      .ok [.str "b", .str "c", .str "d"] ∧
    (∀ a ∈ [("K03", Json.str "c"), ("K1K10", .str "d"), ("K1K2", .str "b")],
      ∃ n, Denotes "K1" a.1 n) ∧
    bind "K1" [("K03", .str "c"), ("K1K3", .str "d")] = .error (rivalKeys "K03" "K1K3" 3) ∧
    ¬ ∃ n, IsGlobal "K1" "K1K3" n ∧ IsLocal "K1K3" n := by
  have hname : "K1" ≠ "" := by decide
  have hbind : bind "K1" [("K03", .str "c"), ("K1K10", .str "d"), ("K1K2", .str "b")] =
      .ok [.str "b", .str "c", .str "d"] := by cbv
  have hrivals : bind "K1" [("K03", .str "c"), ("K1K3", .str "d")] =
      .error (rivalKeys "K03" "K1K3" 3) := by cbv
  have h := bind_by_position hname [("K03", .str "c"), ("K1K10", .str "d"), ("K1K2", .str "b")]
  refine ⟨hname, hbind, (h.1.mp ⟨_, hbind⟩).1, hrivals, ?_⟩
  rintro ⟨n, hforms⟩
  exact h.2.2.2 "K1K3" n n hforms

end Polyglot.Request
