import Mathlib.Data.List.Basic
import Polyglot.Proofs.Codec.Traversal
import Polyglot.Proofs.Json.Numeral
import Polyglot.Request.Binding

/-!
# Arguments in the order of their positions

A key that is made of the name of a function, `K` and a position tells this position
(`position?_append`).

Arguments are bound one after another.  Either all of them are, in the order of the positions that
their keys tell, or the first one is refused whose key tells none or that of an earlier one
(`bind_cases`).  So arguments whose keys tell different positions are bound to their values in
whatever order they come (`bind_eq_ok_of_perm`), and what is bound has one value for each argument
(`of_bind_eq_ok`).
-/

namespace Polyglot.Request

/-! ### Numerals -/

theorem digitValue?_eq_some_iff {c : Char} {d : Nat} :
    Text.digitValue? c = some d ↔ c.isDigit = true ∧ c.toNat - '0'.toNat = d := by
  constructor
  · intro h
    unfold Text.digitValue? at h
    split_ifs at h with hdigit
    refine ⟨?_, Option.some.inj h⟩
    simp only [Char.isDigit, Bool.and_eq_true, decide_eq_true_eq]
    exact hdigit
  · rintro ⟨hdigit, rfl⟩
    exact digitValue?_of_isDigit hdigit

/-- Digits write the number that they have in base ten. -/
theorem readDigits_eq_some_iff {cs : List Char} {n : Nat} :
    Text.readDigits cs = some n ↔
      cs ≠ [] ∧ (∀ c ∈ cs, c.isDigit = true) ∧ Nat.ofDigitChars 10 cs 0 = n := by
  have hsome : ∀ c, (Text.digitValue? c).isSome = true ↔ c.isDigit = true := by
    intro c
    rw [Option.isSome_iff_exists]
    exact ⟨fun ⟨d, hd⟩ => (digitValue?_eq_some_iff.mp hd).1,
      fun hc => ⟨_, digitValue?_of_isDigit hc⟩⟩
  rw [Text.readDigits, Text.readBase_eq_some_iff]
  simp only [hsome]
  refine and_congr_right fun _ => and_congr_right fun hdigits => ?_
  have hfold : cs.foldl (fun n c => n * 10 + (Text.digitValue? c).getD 0) 0 =
      Nat.ofDigitChars 10 cs 0 := by
    refine List.foldl_ext _ _ _ fun m c hc => ?_
    rw [digitValue?_of_isDigit (hdigits c hc), Option.getD_some, Nat.mul_comm]
  rw [hfold]

theorem readDigits_digits (n : Nat) : Text.readDigits (Decimal.digits n) = some n :=
  readDigits_eq_some_iff.mpr
    ⟨digits_ne_nil n, fun _ hc => isDigit_of_mem_digits hc, Nat.ofDigitChars_ten_toDigits⟩

theorem readDigits_eq_none_of_mem {cs : List Char} {c : Char} (hc : c ∈ cs)
    (h : c.isDigit = false) : Text.readDigits cs = none := by
  refine Option.eq_none_iff_forall_not_mem.mpr fun n hn => ?_
  have hdigit := (readDigits_eq_some_iff.mp hn).2.1 c hc
  rw [h] at hdigit
  cases hdigit

/-! ### Keys -/

theorem afterPrefix?_eq_some_iff {cs ds rest : List Char} :
    afterPrefix? cs ds = some rest ↔ ds = cs ++ rest := by
  induction cs generalizing ds with
  | nil => exact ⟨Option.some.inj, fun h => congrArg some h⟩
  | cons c cs ih =>
    cases ds with
    | nil => exact iff_of_false (by rintro ⟨⟩) (by rintro ⟨⟩)
    | cons d ds =>
      rw [afterPrefix?, List.cons_append, List.cons.injEq]
      split_ifs with hcd
      · rw [ih]
        exact ⟨fun h => ⟨hcd.symm, h⟩, fun h => h.2⟩
      · exact iff_of_false (by rintro ⟨⟩) fun h => hcd h.1.symm

theorem toList_append_position (name : String) (n : Nat) :
    (name ++ "K" ++ toString n).toList = name.toList ++ 'K' :: Decimal.digits n := by
  have hn : (toString n).toList = Decimal.digits n := Nat.toList_repr
  rw [String.toList_append, String.toList_append, hn, List.append_assoc]
  rfl

/-- A key with the name of the function tells the position behind it, unless this is too large. -/
theorem position?_append (name : String) (n : Nat) :
    position? name (name ++ "K" ++ toString n) = if n ≤ maxPosition then some n else none := by
  have hlocal : localPosition? ('K' :: Decimal.digits n) =
      if n ≤ maxPosition then some n else none := by
    rw [localPosition?, readDigits_digits, Option.filter_some]
    simp only [decide_eq_true_eq]
  rw [position?, toList_append_position, afterPrefix?_eq_some_iff.mpr rfl, Option.bind_some, hlocal]
  by_cases hn : n ≤ maxPosition
  · rw [if_pos hn, Option.some_or]
  rw [if_neg hn, Option.none_or]
  -- Nor is the whole key a position: its digits are the same, or there is a `K` among them.
  cases hname : name.toList with
  | nil => rw [List.nil_append, hlocal, if_neg hn]
  | cons c cs =>
    by_cases hc : c = 'K'
    · subst hc
      rw [List.cons_append, localPosition?,
        readDigits_eq_none_of_mem (c := 'K') (by simp) (by decide), Option.filter_none]
    · rw [List.cons_append, localPosition?]
      rintro ds hds
      exact hc (List.cons.inj hds).1

/-- The name and the position of a key are told by it. -/
theorem append_position_inj {name other : String} {n m : Nat} :
    name ++ "K" ++ toString n = other ++ "K" ++ toString m ↔ name = other ∧ n = m := by
  -- The last `K` of the key is the one before the position.
  have hdigits : ∀ (k : Nat), ∀ c ∈ (Decimal.digits k).reverse, (c != 'K') = true := by
    intro k c hc
    have hdigit := isDigit_of_mem_digits (List.mem_reverse.mp hc)
    exact bne_iff_ne.mpr fun hK => absurd (hK ▸ hdigit) (by decide)
  constructor
  · intro h
    have hchars := congrArg (List.reverse ∘ String.toList) h
    simp only [Function.comp, toList_append_position, List.reverse_append, List.reverse_cons,
      List.append_assoc, List.singleton_append] at hchars
    have htake := congrArg (List.takeWhile (· != 'K')) hchars
    rw [List.takeWhile_append_of_pos (hdigits n), List.takeWhile_append_of_pos (hdigits m),
      List.takeWhile_cons_of_neg (by decide), List.takeWhile_cons_of_neg (by decide),
      List.append_nil, List.append_nil] at htake
    have hread := congrArg Text.readDigits (List.reverse_injective htake)
    rw [readDigits_digits, readDigits_digits] at hread
    obtain rfl := Option.some.inj hread
    have hname := (List.cons.inj (List.append_cancel_left hchars)).2
    exact ⟨String.toList_injective (List.reverse_injective hname), rfl⟩
  · rintro ⟨rfl, rfl⟩
    rfl

/-! ### Places -/

/-- Whether arguments ascend by their positions. -/
def Bound.Ascending (bound : List Bound) : Prop := bound.Pairwise (·.position < ·.position)

theorem place_of_ne {arg : Bound} {bound : List Bound} (hasc : Bound.Ascending bound)
    (hne : ∀ b ∈ bound, arg.position ≠ b.position) :
    ∃ bound', place arg bound = .ok bound' ∧ Bound.Ascending bound' ∧
      bound'.Perm (arg :: bound) := by
  induction bound with
  | nil => exact ⟨[arg], rfl, List.pairwise_singleton .., List.Perm.refl _⟩
  | cons other rest ih =>
    obtain ⟨hother, hrest⟩ := List.pairwise_cons.mp hasc
    obtain ⟨hne', hnerest⟩ := List.forall_mem_cons.mp hne
    rw [place]
    by_cases hlt : arg.position < other.position
    · refine ⟨_, if_pos hlt, List.pairwise_cons.mpr ⟨fun b hb => ?_, hasc⟩, List.Perm.refl _⟩
      rcases List.mem_cons.mp hb with rfl | hb
      · exact hlt
      · exact Nat.lt_trans hlt (hother b hb)
    · obtain ⟨rest', hplace, hasc', hperm⟩ := ih hrest hnerest
      rw [if_neg hlt, if_neg hne', hplace]
      refine ⟨other :: rest', rfl, List.pairwise_cons.mpr ⟨fun b hb => ?_, hasc'⟩,
        (hperm.cons other).trans (List.Perm.swap ..)⟩
      rcases List.mem_cons.mp (hperm.mem_iff.mp hb) with rfl | hb
      · omega
      · exact hother b hb

/-- An argument for the position of another one is not placed. -/
theorem place_of_mem {arg b : Bound} {bound : List Bound} (hasc : Bound.Ascending bound)
    (hb : b ∈ bound) (h : arg.position = b.position) :
    place arg bound = .error (rivalKeys b.key arg.key arg.position) := by
  induction bound with
  | nil => cases hb
  | cons other rest ih =>
    obtain ⟨hother, hrest⟩ := List.pairwise_cons.mp hasc
    rw [place]
    rcases List.mem_cons.mp hb with rfl | hb
    · rw [if_neg (by omega), if_pos h]
    · have hlt := hother b hb
      rw [if_neg (by omega), if_neg (by omega), ih hrest hb]
      rfl

/-! ### One argument after another -/

theorem bindKey_of_position {name : String} {arg : Bound}
    (h : position? name arg.key = some arg.position) (bound : List Bound) :
    bindKey name bound (arg.key, arg.value) = place arg bound := by
  rw [bindKey, h]

/-- Whether arguments stand at the positions that the keys of fields tell. -/
structure Told (name : String) (args : List Bound) (fields : Json.Fields Json) : Prop where
  /-- The arguments are the fields. -/
  fields : args.map (fun b => (b.key, b.value)) = fields
  /-- The position of each is told by its key. -/
  position {b : Bound} (hb : b ∈ args) : position? name b.key = some b.position

theorem Told.cons {name : String} {arg : Bound} {args : List Bound} {fields : Json.Fields Json}
    (harg : position? name arg.key = some arg.position) (h : Told name args fields) :
    Told name (arg :: args) ((arg.key, arg.value) :: fields) where
  fields := by rw [List.map_cons, h.fields]
  position hb := by
    rcases List.mem_cons.mp hb with rfl | hb
    · exact harg
    · exact h.position hb

/-- The argument that a field is, if its key tells a position. -/
def argument (name : String) (field : String × Json) : Bound :=
  ⟨(position? name field.1).getD 0, field.1, field.2⟩

/-- There is only one way to read the arguments from the fields. -/
theorem Told.eq_map {name : String} {args : List Bound} {fields : Json.Fields Json}
    (h : Told name args fields) : args = fields.map (argument name) := by
  rw [← h.fields, List.map_map]
  refine (List.map_id args).symm.trans (List.map_congr_left fun b hb => ?_)
  rw [Function.comp, argument, h.position hb]
  rfl

/-- Why a field cannot be bound after others: its key tells no position, or that of another one. -/
inductive Refused (name : String) (earlier : List Bound) (field : String × Json) : Fault → Prop
  | stray (h : position? name field.1 = none) : Refused name earlier field (strayKey name field.1)
  | rival {b : Bound} (hb : b ∈ earlier) (h : position? name field.1 = some b.position) :
    Refused name earlier field (rivalKeys b.key field.1 b.position)

/-- Either all fields are bound, in the order of their positions, or the first one that cannot be
bound is refused. -/
theorem foldlM_bindKey_cases (name : String) (fields : Json.Fields Json) {acc : List Bound}
    (hasc : Bound.Ascending acc) :
    (∃ args bound, Told name args fields ∧ fields.foldlM (bindKey name) acc = .ok bound ∧
        Bound.Ascending bound ∧ bound.Perm (args ++ acc)) ∨
      ∃ before field after args fault, fields = before ++ field :: after ∧ Told name args before ∧
        Refused name (args ++ acc) field fault ∧
        fields.foldlM (bindKey name) acc = .error fault := by
  induction fields generalizing acc with
  | nil => exact .inl ⟨[], acc, ⟨rfl, by rintro _ ⟨⟩⟩, rfl, hasc, List.Perm.refl _⟩
  | cons field fields ih =>
    rw [List.foldlM_cons]
    cases hposition : position? name field.1 with
    | none =>
      refine .inr ⟨[], field, fields, [], strayKey name field.1, rfl, ⟨rfl, by rintro _ ⟨⟩⟩,
        .stray hposition, ?_⟩
      rw [bindKey, hposition]
      rfl
    | some n =>
      obtain ⟨arg, rfl, harg⟩ : ∃ arg : Bound, field = (arg.key, arg.value) ∧
          position? name arg.key = some arg.position := ⟨⟨n, field.1, field.2⟩, rfl, hposition⟩
      rw [bindKey_of_position harg]
      by_cases hrival : ∃ b ∈ acc, arg.position = b.position
      · obtain ⟨b, hb, heq⟩ := hrival
        refine .inr ⟨[], (arg.key, arg.value), fields, [], rivalKeys b.key arg.key b.position, rfl,
          ⟨rfl, by rintro _ ⟨⟩⟩, .rival hb (heq ▸ harg), ?_⟩
        rw [place_of_mem hasc hb heq, heq]
        rfl
      · obtain ⟨acc', hplace, hasc', hperm⟩ :=
          place_of_ne hasc fun b hb h => hrival ⟨b, hb, h⟩
        -- The argument is among those that the rest is bound after.
        have hnext : ∀ args : List Bound, (args ++ acc').Perm (arg :: args ++ acc) := fun args =>
          (hperm.append_left args).trans List.perm_middle
        rw [hplace]
        rcases ih hasc' with ⟨args, bound, htold, hbound, hbasc, hbperm⟩ |
          ⟨before, field, after, args, fault, rfl, htold, hrefused, hfault⟩
        · exact .inl ⟨arg :: args, bound, htold.cons harg, hbound, hbasc, hbperm.trans (hnext args)⟩
        · refine .inr ⟨(arg.key, arg.value) :: before, field, after, arg :: args, fault, rfl,
            htold.cons harg, ?_, hfault⟩
          cases hrefused with
          | stray h => exact .stray h
          | rival hb h => exact .rival ((hnext args).mem_iff.mp hb) h

/-! ### All arguments -/

/-- Either all arguments are bound, in the order of their positions, or the first one that cannot be
bound is refused. -/
theorem bind_cases (name : String) (fields : Json.Fields Json) :
    (∃ args bound, Told name args fields ∧ bind name fields = .ok (bound.map (·.value)) ∧
        Bound.Ascending bound ∧ bound.Perm args) ∨
      ∃ before field after args fault, fields = before ++ field :: after ∧ Told name args before ∧
        Refused name args field fault ∧ bind name fields = .error fault := by
  rcases foldlM_bindKey_cases name fields List.Pairwise.nil with
    ⟨args, bound, htold, hbound, hasc, hperm⟩ |
    ⟨before, field, after, args, fault, hfields, htold, hrefused, hfault⟩
  · rw [List.append_nil] at hperm
    exact .inl ⟨args, bound, htold, by rw [bind, hbound]; rfl, hasc, hperm⟩
  · rw [List.append_nil] at hrefused
    exact .inr ⟨before, field, after, args, fault, hfields, htold, hrefused,
      by rw [bind, hfault]; rfl⟩

/-- What is bound are the arguments, in the order of their positions. -/
theorem exists_of_bind_eq_ok {name : String} {fields : Json.Fields Json} {values : List Json}
    (h : bind name fields = .ok values) : ∃ args bound, Told name args fields ∧
      bound.map (·.value) = values ∧ Bound.Ascending bound ∧ bound.Perm args := by
  rcases bind_cases name fields with ⟨args, bound, htold, hbind, hasc, hperm⟩ |
    ⟨_, _, _, _, _, -, -, -, hbind⟩
  · exact ⟨args, bound, htold, Except.ok.inj (hbind.symm.trans h), hasc, hperm⟩
  · rw [h] at hbind
    cases hbind

/-- Arguments whose keys tell ascending positions are bound to their values, whatever order they come
in. -/
theorem bind_eq_ok_of_perm {name : String} {fields : Json.Fields Json} {bound : List Bound}
    (hperm : fields.Perm (bound.map fun b => (b.key, b.value)))
    (hpos : ∀ b ∈ bound, position? name b.key = some b.position) (hasc : Bound.Ascending bound) :
    bind name fields = .ok (bound.map (·.value)) := by
  have hread : (fields.map (argument name)).Perm bound := by
    have htold : Told name bound (bound.map fun b => (b.key, b.value)) := ⟨rfl, hpos _⟩
    exact (hperm.map (argument name)).trans (.of_eq htold.eq_map.symm)
  rcases bind_cases name fields with ⟨args, bound', htold, hbind, hasc', hperm'⟩ |
    ⟨before, field, after, args, fault, rfl, htold, hrefused, -⟩
  · -- There is only one way to put them in order.
    have heq : bound' = bound :=
      ((hperm'.trans (.of_eq htold.eq_map)).trans hread).eq_of_pairwise
        (fun a b _ _ hab hba => absurd (Nat.lt_trans hab hba) (Nat.lt_irrefl _)) hasc' hasc
    rw [hbind, heq]
  · -- None is refused: all keys tell positions, and these differ.
    rw [List.map_append, List.map_cons, ← htold.eq_map] at hread
    cases hrefused with
    | stray h =>
      have hfield := hpos _ (hread.mem_iff.mp (List.mem_append_right _ List.mem_cons_self))
      exact absurd (h.symm.trans hfield) (by rintro ⟨⟩)
    | @rival b hb h =>
      have hne := (hasc.imp Nat.ne_of_lt).perm hread.symm fun hne => hne.symm
      refine absurd ?_ ((List.pairwise_append.mp hne).2.2 b hb _ List.mem_cons_self)
      rw [argument, h, Option.getD_some]

/-- What is bound has one value for each argument, and each key tells a position. -/
theorem of_bind_eq_ok {name : String} {fields : Json.Fields Json} {values : List Json}
    (h : bind name fields = .ok values) : values.length = fields.length ∧
      ∀ f ∈ fields, position? name f.1 ≠ none := by
  obtain ⟨args, bound, htold, rfl, -, hperm⟩ := exists_of_bind_eq_ok h
  rw [← htold.fields]
  refine ⟨by rw [List.length_map, List.length_map, hperm.length_eq], ?_⟩
  rintro f hf
  obtain ⟨b, hb, rfl⟩ := List.mem_map.mp hf
  rw [htold.position hb]
  exact Option.some_ne_none _

/-- The values that are bound are those of the arguments. -/
theorem exists_mem_of_bind {name : String} {fields : Json.Fields Json} {values : List Json}
    (h : bind name fields = .ok values) : ∀ v ∈ values, ∃ f ∈ fields, f.2 = v := by
  obtain ⟨args, bound, htold, rfl, -, hperm⟩ := exists_of_bind_eq_ok h
  intro v hv
  obtain ⟨b, hb, rfl⟩ := List.mem_map.mp hv
  exact ⟨(b.key, b.value), htold.fields ▸ List.mem_map_of_mem (hperm.mem_iff.mp hb), rfl⟩

end Polyglot.Request
