import Polyglot.Proofs.Codec.Reordered
import Polyglot.Proofs.Json.Equality

/-!
# Types are told apart by their keys

Encoding by shape compares types by their keys, which are texts.  The key of a type is the compact
text of its reference form with the keys of every object sorted (`Json.sorted`); the keys of an object
ascend already, so sorting them changes nothing (`Json.WellFormed.sorted_eq_self`).

Types without floating-point numbers have one key exactly when their reference forms are equal, and so
the types that are found are right: tags of one type share it, whatever forms it is written in, and
tags of which two differ share the type of all objects (`told_apart_by_typeKey`).  That two texts are
never equal by accident is what reading them back shows (`Json.eq_of_render_eq`).

With floating-point numbers equal types may have two keys: the two zeros are equal and are written
differently.
-/

namespace Polyglot

namespace Json

/-! ### Sorted keys -/

mutual

/-- A value with every object built anew, its keys in order. -/
def sorted : Json → Json
  | arr xs => arr (sortedItems xs)
  | obj xs => object (sortedFields xs)
  | other => other

/-- The items with every object built anew. -/
def sortedItems : List Json → List Json
  | [] => []
  | x :: xs => sorted x :: sortedItems xs

/-- The fields with every object in them built anew. -/
def sortedFields : List (String × Json) → List (String × Json)
  | [] => []
  | (k, x) :: xs => (k, sorted x) :: sortedFields xs

end

mutual

/-- The keys in a well-formed value are sorted. -/
theorem WellFormed.sorted_eq_self : ∀ {j : Json}, j.WellFormed → j.sorted = j
  | .null, _ | .bool _, _ | .num _, _ | .str _, _ => by rw [sorted] <;> rintro _ ⟨⟩
  | .arr xs, .arr h => by rw [sorted, sortedItems_eq_self h]
  | .obj xs, .obj hk h => by
    rw [sorted, sortedFields_eq_self h, object, Fields.ofList_of_ascending hk]

theorem sortedItems_eq_self : ∀ {xs : List Json}, (∀ x ∈ xs, WellFormed x) → sortedItems xs = xs
  | [], _ => rfl
  | x :: xs, h => by
    obtain ⟨hx, hxs⟩ := List.forall_mem_cons.mp h
    rw [sortedItems, hx.sorted_eq_self, sortedItems_eq_self hxs]

theorem sortedFields_eq_self : ∀ {xs : List (String × Json)}, (∀ f ∈ xs, WellFormed f.2) →
    sortedFields xs = xs
  | [], _ => rfl
  | (k, x) :: xs, h => by
    obtain ⟨hx, hxs⟩ := List.forall_mem_cons.mp h
    rw [sortedFields, hx.sorted_eq_self, sortedFields_eq_self hxs]

end

/-! ### Values without floating-point numbers -/

theorem Integral.referenceForm {type : Json} (h : type.Integral) :
    (Wire.referenceForm type).Integral := by
  cases type with
  | str s =>
    refine ⟨compositional_wellFormed.reference s, ?_⟩
    simp [Wire.referenceForm, Wire.reference, numbers, numbersOfFields]
  | _ => exact h

/-- Equality of values without floating-point numbers is that they are the same. -/
theorem Integral.same_iff {a b : Json} (h : a.Integral) : a.same b = true ↔ a = b :=
  ⟨eq_of_same h.2, fun heq => heq ▸ a.same_refl⟩

/-- The two floating-point zeros are equal and have different keys. -/
example : (num (.double (.zero false))).same (num (.double (.zero true))) = true ∧
    Wire.typeKey (num (.double (.zero false))) ≠ Wire.typeKey (num (.double (.zero true))) := by
  decide +kernel

end Json

namespace Codec

/-- Types are told apart by their keys.  The key of a type is the text of its reference form, the keys
of objects sorted.  Two types without floating-point numbers have the same key exactly when their
reference forms are equal as JSON values.  So no two types are taken for one and none for two: tags
that all have one reference form share it, and tags of which two differ share just the type of all
objects. -/
theorem told_apart_by_typeKey :
    (∀ type : Json, type.WellFormed →
      Wire.typeKey type = (Wire.referenceForm type).sorted.render) ∧
    (∀ a b : Json, a.Integral → b.Integral →
      (Wire.typeKey a = Wire.typeKey b ↔ Wire.referenceForm a = Wire.referenceForm b) ∧
      ((Wire.referenceForm a).same (Wire.referenceForm b) = true ↔
        Wire.referenceForm a = Wire.referenceForm b)) ∧
    ∀ tags : List Json, (∀ tag ∈ tags, tag.Integral) →
      (∀ type, tags ≠ [] → (∀ tag ∈ tags, Wire.referenceForm tag = type) →
        sharedType tags = type) ∧
      ∀ a ∈ tags, ∀ b ∈ tags, Wire.referenceForm a ≠ Wire.referenceForm b →
        sharedType tags = Wire.reference TypeId.any := by
  refine ⟨fun type h => ?_, fun a b ha hb => ⟨?_, ha.referenceForm.same_iff⟩, fun tags h => ?_⟩
  · rw [(Json.compositional_wellFormed.referenceForm h).sorted_eq_self, Wire.typeKey]
  · exact typeKey_eq_iff ha.legible hb.legible
  · have hshared : IsShared tags (sharedType tags) :=
      isShared_sharedType fun tag htag => (h tag htag).legible
    refine ⟨fun type hne hall => ?_, fun a ha b hb hdiffer => ?_⟩
    · exact hshared.unique (.common hne hall) fun _ => Iff.rfl
    · exact hshared.unique (.differ ha hb hdiffer) fun _ => Iff.rfl

/-- A type with signs of JSON in a key and in a string, and with a part in an array. -/
def punctuatedType (part : Json) : Json :=
  .obj [("Z1K1", .str "Z7"), ("a\":[", .arr [part, .str "\",\\\n", .obj []])]

/-- A bare identifier is one type with the reference to it, and a number is another part of a type
than the string of its digits. -/
theorem told_apart_by_typeKey_punctuatedType :
    (∀ tag ∈ [Json.str "Z6", Wire.reference "Z6"], tag.Integral) ∧
    Wire.typeKey (.str "Z6") = Wire.typeKey (Wire.reference "Z6") ∧
    sharedType [.str "Z6", Wire.reference "Z6"] = Wire.reference "Z6" ∧
    (∀ tag ∈ [punctuatedType (.num (.int (-1))), punctuatedType (.str "-1")], tag.Integral) ∧
    Wire.typeKey (punctuatedType (.str "-1")) = (punctuatedType (.str "-1")).sorted.render ∧
    Wire.typeKey (punctuatedType (.num (.int (-1)))) ≠ Wire.typeKey (punctuatedType (.str "-1")) ∧
    sharedType [punctuatedType (.num (.int (-1))), punctuatedType (.str "-1")] =
      Wire.reference TypeId.any := by
  have hbare : ∀ tag ∈ [Json.str "Z6", Wire.reference "Z6"], tag.Integral := by
    have hstr : (Json.str "Z6").Integral := ⟨.str "Z6", by simp [Json.numbers]⟩
    simpa using ⟨hstr, hstr.referenceForm⟩
  have hnumber : (punctuatedType (.num (.int (-1)))).Integral := by
    refine ⟨by decide +kernel, ?_⟩
    simp [punctuatedType, Json.numbers, Json.numbersOfFields, Json.numbersOfItems]
  have hdigits : (punctuatedType (.str "-1")).Integral := by
    refine ⟨by decide +kernel, ?_⟩
    simp [punctuatedType, Json.numbers, Json.numbersOfFields, Json.numbersOfItems]
  have hboth : ∀ tag ∈ [punctuatedType (.num (.int (-1))), punctuatedType (.str "-1")],
      tag.Integral := List.forall_mem_cons.mpr ⟨hnumber, List.forall_mem_singleton.mpr hdigits⟩
  have hdiffer : Wire.referenceForm (punctuatedType (.num (.int (-1)))) ≠
      Wire.referenceForm (punctuatedType (.str "-1")) := by
    simp [Wire.referenceForm, punctuatedType]
  obtain ⟨htext, hkey, hshared⟩ := told_apart_by_typeKey
  refine ⟨hbare, ?_, ?_, hboth, htext _ hdigits.1, ?_, ?_⟩
  · exact (hkey _ _ (hbare _ (by simp)) (hbare _ (by simp))).1.mpr rfl
  · exact (hshared _ hbare).1 _ (by simp) (by simp [Wire.referenceForm, Wire.reference])
  · exact fun h => hdiffer ((hkey _ _ hnumber hdigits).1.mp h)
  · exact (hshared _ hboth).2 _ (by simp) _ (by simp) hdiffer

end Codec

end Polyglot
