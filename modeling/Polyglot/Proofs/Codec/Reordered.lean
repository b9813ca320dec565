import Mathlib
import Polyglot.Proofs.Codec.Found

/-!
# Types that are found in any order

Encoding by shape finds the type that the parts of a list or a map share.  Types are told apart by
their texts, and without floating-point numbers equal texts belong to equal types, so `sharedType` is
determined by the tags alone, whatever their order (`isShared_sharedType`, `IsShared.unique`): it is
the one type that all of them are, a bare identifier counting as the reference to it, or that of all
objects.

So when the items of a list or the entries of a map come in another order, their wire values come in
that order too, and the types that are found are the same (`encodeAny_reordered`).
-/

namespace Polyglot

/-! ### Lists in another order -/

/-- Whether lists of one length have the same items, those of the first at the places that a
permutation gives. -/
structure Reorders {α : Type} {n : Nat} (σ : Equiv.Perm (Fin n)) (ys xs : List α) : Prop where
  /-- The length of the first. -/
  length : ys.length = n
  /-- The length of the second. -/
  length_right : xs.length = n
  /-- Each item of the first is one of the second. -/
  item (i : Fin n) : ys[i.val]? = xs[(σ i).val]?

namespace Reorders

variable {α β : Type} {n : Nat} {σ : Equiv.Perm (Fin n)} {xs ys : List α}

theorem map (h : Reorders σ ys xs) (f : α → β) : Reorders σ (ys.map f) (xs.map f) where
  length := by rw [List.length_map, h.length]
  length_right := by rw [List.length_map, h.length_right]
  item i := by rw [List.getElem?_map, List.getElem?_map, h.item]

theorem symm (h : Reorders σ ys xs) : Reorders σ.symm xs ys where
  length := h.length_right
  length_right := h.length
  item i := by rw [h.item, Equiv.apply_symm_apply]

theorem mem_of_mem (h : Reorders σ ys xs) {x : α} (hx : x ∈ ys) : x ∈ xs := by
  obtain ⟨i, hi⟩ := List.mem_iff_getElem?.mp hx
  obtain ⟨hlt, -⟩ := List.getElem?_eq_some_iff.mp hi
  have hitem := h.item ⟨i, h.length ▸ hlt⟩
  exact List.mem_iff_getElem?.mpr ⟨_, hitem.symm.trans hi⟩

theorem mem_iff (h : Reorders σ ys xs) {x : α} : x ∈ ys ↔ x ∈ xs :=
  ⟨h.mem_of_mem, h.symm.mem_of_mem⟩

/-- What goes with the items, each with just one, comes in the same order. -/
theorem of_forall₂ (h : Reorders σ ys xs) {R : α → β → Prop}
    (hR : ∀ x a b, R x a → R x b → a = b) {as bs : List β} (hxs : List.Forall₂ R xs as)
    (hys : List.Forall₂ R ys bs) : Reorders σ bs as := by
  have has : as.length = n := hxs.length_eq.symm.trans h.length_right
  have hbs : bs.length = n := hys.length_eq.symm.trans h.length
  refine ⟨hbs, has, fun i => ?_⟩
  have hy : i.val < ys.length := h.length ▸ i.isLt
  have hx : (σ i).val < xs.length := h.length_right ▸ (σ i).isLt
  have hb : i.val < bs.length := hbs ▸ i.isLt
  have ha : (σ i).val < as.length := has ▸ (σ i).isLt
  have hitem : ys[i.val] = xs[(σ i).val] := by
    have hitem := h.item i
    rw [List.getElem?_eq_getElem hy, List.getElem?_eq_getElem hx] at hitem
    exact Option.some.inj hitem
  have hRy : R ys[i.val] bs[i.val] := hys.get hy hb
  have hRx : R xs[(σ i).val] as[(σ i).val] := hxs.get hx ha
  rw [List.getElem?_eq_getElem hb, List.getElem?_eq_getElem ha, hR _ _ _ hRy (hitem ▸ hRx)]

end Reorders

namespace Json

/-- Whether a value is well-formed and holds no floating-point number. -/
def Integral (j : Json) : Prop := j.WellFormed ∧ ∀ n ∈ j.numbers, ∃ k, n = .int k

theorem Integral.legible {j : Json} (h : j.Integral) : j.Legible := h.1.legible h.2

end Json

namespace Codec

/-! ### The type that tags share -/

/-- Whether a type is the one that all tags are, a bare identifier counting as the reference to it, or
that of all objects where tags differ or there are none. -/
inductive IsShared : (tags : List Json) → Json → Prop
  | common {tags : List Json} {type : Json} (hne : tags ≠ [])
    (h : ∀ tag ∈ tags, Wire.referenceForm tag = type) : IsShared tags type
  | none : IsShared [] (Wire.reference TypeId.any)
  | differ {tags : List Json} {a b : Json} (ha : a ∈ tags) (hb : b ∈ tags)
    (h : Wire.referenceForm a ≠ Wire.referenceForm b) : IsShared tags (Wire.reference TypeId.any)

theorem isShared_sharedType {tags : List Json} (hl : ∀ tag ∈ tags, tag.Legible) :
    IsShared tags (sharedType tags) := by
  cases tags with
  | nil => exact .none
  | cons tag rest =>
    obtain ⟨htag, hrest⟩ := List.forall_mem_cons.mp hl
    by_cases hall : ∀ other ∈ rest, Wire.referenceForm other = Wire.referenceForm tag
    · have hshared : sharedType (tag :: rest) = Wire.referenceForm tag := by
        refine if_pos (List.all_eq_true.mpr fun other hother => beq_iff_eq.mpr ?_)
        exact (typeKey_eq_iff (hrest other hother) htag).mpr (hall other hother)
      rw [hshared]
      exact .common (by rintro ⟨⟩) (List.forall_mem_cons.mpr ⟨rfl, hall⟩)
    · push Not at hall
      obtain ⟨other, hother, hne⟩ := hall
      have hmem : other ∈ tag :: rest := List.mem_cons_of_mem _ hother
      rcases sharedType_cases hl with hany | ⟨-, hcommon⟩
      · rw [hany]
        exact .differ hmem List.mem_cons_self hne
      · exact absurd ((hcommon other hmem).trans (hcommon tag List.mem_cons_self).symm) hne

/-- The type that tags share depends on which tags there are, and on nothing else. -/
theorem IsShared.unique {tags others : List Json} {type other : Json} (h : IsShared tags type)
    (ho : IsShared others other) (hmem : ∀ tag, tag ∈ tags ↔ tag ∈ others) : type = other := by
  cases h with
  | common hne h =>
    obtain ⟨tag, htag⟩ := List.exists_mem_of_ne_nil _ hne
    cases ho with
    | common _ ho => exact (h tag htag).symm.trans (ho tag ((hmem tag).mp htag))
    | none => cases (hmem tag).mp htag
    | differ ha hb hdiffer =>
      exact absurd ((h _ ((hmem _).mpr ha)).trans (h _ ((hmem _).mpr hb)).symm) hdiffer
  | none =>
    cases ho with
    | common hne _ =>
      obtain ⟨tag, htag⟩ := List.exists_mem_of_ne_nil _ hne
      cases (hmem tag).mpr htag
    | _ => rfl
  | differ ha hb hdiffer =>
    cases ho with
    | common _ ho =>
      exact absurd ((ho _ ((hmem _).mp ha)).trans (ho _ ((hmem _).mp hb)).symm) hdiffer
    | _ => rfl

/-! ### Parts in another order -/

/-- The tags of what is encoded by its shape are told by their texts. -/
theorem legible_tagOf {value : Value} (h : value.EveryDeclared Json.Integral) {wire : Json}
    (hw : builtin.encodeAny value = .ok wire) : (tagOf wire).Legible := by
  have hP := Json.compositional_legible
  exact hP.tagOf (hP.encode (h.mono fun _ ht => ht.legible) (hP.reference _) hw)

theorem sharedType_reordered {n : Nat} {σ : Equiv.Perm (Fin n)} {tags others : List Json}
    (h : Reorders σ others tags) (hl : ∀ tag ∈ tags, tag.Legible) :
    sharedType others = sharedType tags := by
  have hothers : ∀ tag ∈ others, tag.Legible := fun tag htag => hl tag (h.mem_iff.mp htag)
  exact (isShared_sharedType hothers).unique (isShared_sharedType hl) fun tag => h.mem_iff

variable {n : Nat} {σ : Equiv.Perm (Fin n)}

theorem encodeAny_list_reordered {xs ys : List Value} (h : Reorders σ ys xs)
    (hdeclared : ∀ x ∈ xs, x.EveryDeclared Json.Integral) {wire other : Json}
    (hx : builtin.encodeAny (.list xs) = .ok wire) (hy : builtin.encodeAny (.list ys) = .ok other) :
    ∃ type elements others, wire = Wire.listWith (Wire.listOf type) elements ∧
      other = Wire.listWith (Wire.listOf type) others ∧ Reorders σ others elements ∧
      IsShared (elements.map tagOf) type := by
  obtain ⟨elements, helements, rfl⟩ := exists_of_items (step_any (.list xs)) hx
  obtain ⟨others, hothers, rfl⟩ := exists_of_items (step_any (.list ys)) hy
  have hreorders : Reorders σ others elements :=
    h.of_forall₂ (fun _ _ _ ha hb => Except.ok.inj (ha.symm.trans hb)) helements hothers
  have hl : ∀ tag ∈ elements.map tagOf, tag.Legible := by
    refine List.forall_mem_map.mpr fun w hw => ?_
    obtain ⟨x, hzip⟩ := Traversal.exists_mem_zip_of_mem_right helements hw
    exact legible_tagOf (hdeclared x (List.of_mem_zip hzip).1) (List.forall₂_zip helements hzip)
  refine ⟨sharedType (elements.map tagOf), elements, others, rfl, ?_, hreorders,
    isShared_sharedType hl⟩
  rw [inferredList, sharedType_reordered (hreorders.map tagOf) hl]

theorem encodeAny_map_reordered {xs ys : Value.Entries} (h : Reorders σ ys xs)
    (hdeclared : xs.EveryDeclared Json.Integral) {wire other : Json}
    (hx : builtin.encodeAny (.map xs) = .ok wire) (hy : builtin.encodeAny (.map ys) = .ok other) :
    ∃ key value entries others,
      wire = mapWire (Wire.mapOf key value) (Wire.pairOf key value) entries ∧
      other = mapWire (Wire.mapOf key value) (Wire.pairOf key value) others ∧
      Reorders σ others entries ∧ IsShared (entries.map fun e => tagOf e.1) key ∧
      IsShared (entries.map fun e => tagOf e.2) value := by
  obtain ⟨entries, hentries, rfl⟩ := exists_of_entries (step_any (.map xs)) hx
  obtain ⟨others, hothers, rfl⟩ := exists_of_entries (step_any (.map ys)) hy
  have hreorders : Reorders σ others entries := by
    refine h.of_forall₂ (fun _ _ _ ha hb => ?_) hentries hothers
    exact Prod.ext (Except.ok.inj (ha.1.symm.trans hb.1)) (Except.ok.inj (ha.2.symm.trans hb.2))
  have hl : ∀ w ∈ entries, (tagOf w.1).Legible ∧ (tagOf w.2).Legible := by
    intro w hw
    obtain ⟨e, hzip⟩ := Traversal.exists_mem_zip_of_mem_right hentries hw
    obtain ⟨hk, hv⟩ := List.forall₂_zip hentries hzip
    obtain ⟨hdk, hdv⟩ := hdeclared e (List.of_mem_zip hzip).1
    exact ⟨legible_tagOf hdk hk, legible_tagOf hdv hv⟩
  have hkeys : ∀ tag ∈ entries.map fun e => tagOf e.1, tag.Legible :=
    List.forall_mem_map.mpr fun w hw => (hl w hw).1
  have hvalues : ∀ tag ∈ entries.map fun e => tagOf e.2, tag.Legible :=
    List.forall_mem_map.mpr fun w hw => (hl w hw).2
  refine ⟨_, _, entries, others, rfl, ?_, hreorders, isShared_sharedType hkeys,
    isShared_sharedType hvalues⟩
  rw [inferredMap, sharedType_reordered (hreorders.map fun e => tagOf e.1) hkeys,
    sharedType_reordered (hreorders.map fun e => tagOf e.2) hvalues]

/-- When the items of a list, or the entries of a map, come in another order, it is encoded as well or
not at all, their wire values come in that order, and the types that are found are the same ones: those
that all items, keys or values share, or that of all objects. -/
theorem encodeAny_reordered (σ : Equiv.Perm (Fin n)) :
    (∀ xs ys : List Value, Reorders σ ys xs → (∀ x ∈ xs, x.EveryDeclared Json.Integral) →
      ((∃ wire, builtin.encodeAny (.list ys) = .ok wire) ↔
        ∃ wire, builtin.encodeAny (.list xs) = .ok wire) ∧
      ∀ wire other, builtin.encodeAny (.list xs) = .ok wire →
        builtin.encodeAny (.list ys) = .ok other →
          ∃ type elements others, wire = Wire.listWith (Wire.listOf type) elements ∧
            other = Wire.listWith (Wire.listOf type) others ∧ tagOf other = tagOf wire ∧
            Reorders σ others elements ∧ IsShared (elements.map tagOf) type) ∧
    ∀ xs ys : Value.Entries, Reorders σ ys xs → xs.EveryDeclared Json.Integral →
      ((∃ wire, builtin.encodeAny (.map ys) = .ok wire) ↔
        ∃ wire, builtin.encodeAny (.map xs) = .ok wire) ∧
      ∀ wire other, builtin.encodeAny (.map xs) = .ok wire →
        builtin.encodeAny (.map ys) = .ok other →
          ∃ key value entries others,
            wire = mapWire (Wire.mapOf key value) (Wire.pairOf key value) entries ∧
            other = mapWire (Wire.mapOf key value) (Wire.pairOf key value) others ∧
            tagOf other = tagOf wire ∧ Reorders σ others entries ∧
            IsShared (entries.map fun e => tagOf e.1) key ∧
            IsShared (entries.map fun e => tagOf e.2) value := by
  constructor
  · intro xs ys h hdeclared
    refine ⟨?_, fun wire other hx hy => ?_⟩
    · simp only [exists_encodeAny_list_iff, h.mem_iff]
    · obtain ⟨type, elements, others, rfl, rfl, hrest⟩ :=
        encodeAny_list_reordered h hdeclared hx hy
      exact ⟨type, elements, others, rfl, rfl, by rw [tagOf_listWith, tagOf_listWith], hrest⟩
  · intro xs ys h hdeclared
    refine ⟨?_, fun wire other hx hy => ?_⟩
    · simp only [exists_encodeAny_map_iff, h.mem_iff]
    · obtain ⟨key, value, entries, others, rfl, rfl, hrest⟩ :=
        encodeAny_map_reordered h hdeclared hx hy
      exact ⟨key, value, entries, others, rfl, rfl, rfl, hrest⟩

/-- Two records of one type, which the first writes as a bare identifier and the second as a
reference. -/
def bareAndReference : List Value :=
  [.record (some (.str "Z2000")) [], .record (some (Wire.reference "Z2000")) []]

/-- Whichever of them comes first, the list is one of their type as a reference, and a map that has
them under two strings is one from strings to that reference. -/
theorem encodeAny_reordered_bareAndReference :
    Reorders (Equiv.swap (0 : Fin 2) 1) bareAndReference.reverse bareAndReference ∧
    (∀ v ∈ bareAndReference, v.EveryDeclared Json.Integral) ∧
    (∃ wire other, builtin.encodeAny (.list bareAndReference) = .ok wire ∧
      builtin.encodeAny (.list bareAndReference.reverse) = .ok other ∧ tagOf other = tagOf wire ∧
      tagOf wire = Wire.listOf (Wire.reference "Z2000")) ∧
    ∃ wire other,
      builtin.encodeAny (.map ([.text "a", .text "b"].zip bareAndReference)) = .ok wire ∧
      builtin.encodeAny (.map ([.text "a", .text "b"].zip bareAndReference).reverse) = .ok other ∧
      tagOf other = tagOf wire ∧
      tagOf wire = Wire.mapOf (.str "Z6") (Wire.reference "Z2000") := by
  have hlist : Reorders (Equiv.swap (0 : Fin 2) 1) bareAndReference.reverse bareAndReference :=
    ⟨rfl, rfl, by intro i; fin_cases i <;> rfl⟩
  have hmap : Reorders (Equiv.swap (0 : Fin 2) 1)
      ([Value.text "a", .text "b"].zip bareAndReference).reverse
      ([Value.text "a", .text "b"].zip bareAndReference) :=
    ⟨rfl, rfl, by intro i; fin_cases i <;> rfl⟩
  have hintegral : (Json.str "Z2000").Integral ∧ (Wire.reference "Z2000").Integral := by
    refine ⟨⟨.str _, by simp [Json.numbers]⟩, by decide +kernel, ?_⟩
    simp [Wire.reference, Json.numbers, Json.numbersOfFields]
  have hdeclared : ∀ v ∈ bareAndReference, v.EveryDeclared Json.Integral := by
    refine List.forall_mem_cons.mpr ⟨.record ?_ (by simp), List.forall_mem_singleton.mpr ?_⟩
    · rintro _ ⟨⟩
      exact hintegral.1
    · refine .record ?_ (by simp)
      rintro _ ⟨⟩
      exact hintegral.2
  have hentries : Value.Entries.EveryDeclared Json.Integral
      ([.text "a", .text "b"].zip bareAndReference) := by
    intro e he
    refine ⟨?_, hdeclared e.2 (List.of_mem_zip he).2⟩
    rcases List.mem_cons.mp (List.of_mem_zip he).1 with h | h
    · exact h ▸ .text "a"
    · exact List.mem_singleton.mp h ▸ .text "b"
  obtain ⟨-, hshared⟩ := (encodeAny_reordered (Equiv.swap (0 : Fin 2) 1)).1 _ _ hlist hdeclared
  obtain ⟨-, hshared'⟩ := (encodeAny_reordered (Equiv.swap (0 : Fin 2) 1)).2 _ _ hmap hentries
  -- Both records are written with their types as they declare them.
  let bare : Json := .obj [("Z1K1", .str "Z2000")]
  let referred : Json := .obj [("Z1K1", Wire.reference "Z2000")]
  let listType := Wire.listOf (Wire.reference "Z2000")
  let mapType := Wire.mapOf (.str "Z6") (Wire.reference "Z2000")
  let pairType := Wire.pairOf (.str "Z6") (Wire.reference "Z2000")
  have hx : builtin.encodeAny (.list bareAndReference) =
      .ok (Wire.listWith listType [bare, referred]) :=
    encode_of_encodeWithin (show encodeWithin builtin 4 _ _ = _ by cbv) (by rintro ⟨⟩)
  have hy : builtin.encodeAny (.list bareAndReference.reverse) =
      .ok (Wire.listWith listType [referred, bare]) :=
    encode_of_encodeWithin (show encodeWithin builtin 4 _ _ = _ by cbv) (by rintro ⟨⟩)
  have hx' : builtin.encodeAny (.map ([.text "a", .text "b"].zip bareAndReference)) =
      .ok (mapWire mapType pairType [(Wire.text "a", bare), (Wire.text "b", referred)]) :=
    encode_of_encodeWithin (show encodeWithin builtin 4 _ _ = _ by cbv) (by rintro ⟨⟩)
  have hy' : builtin.encodeAny (.map ([.text "a", .text "b"].zip bareAndReference).reverse) =
      .ok (mapWire mapType pairType [(Wire.text "b", referred), (Wire.text "a", bare)]) :=
    encode_of_encodeWithin (show encodeWithin builtin 4 _ _ = _ by cbv) (by rintro ⟨⟩)
  obtain ⟨_, _, _, -, -, heq, -⟩ := hshared _ _ hx hy
  obtain ⟨_, _, _, _, -, -, heq', -⟩ := hshared' _ _ hx' hy'
  exact ⟨hlist, hdeclared, ⟨_, _, hx, hy, heq, rfl⟩, _, _, hx', hy', heq', rfl⟩

end Codec

end Polyglot
