import Mathlib.Logic.Relation
import Polyglot.Proofs.Codec.Alike

/-!
# Canonical and normal forms

A literal, a reference and the identifier of a type may each be written bare or as an object.
`Rewrite` turns one of them, in one place of a wire value, from one form into the other, and what is
`Rewritten` is so in any number of places and in both directions.  Which parts of an object may be
rewritten, and as what, depends on the place where it stands (`Place.parts`): as a value it is decoded
by the rule for its type, and as a list cell, a type or a tag it is read by `listElements`, `typeId` or
`idOfTag?`.  Only a record, whose type has no rule, is left as it is.

Each of these readings yields the same when the parts do (`agree_obj`).  So what is rewritten decodes
to an equal native value (`decode_rewritten`).
-/

namespace Polyglot.Codec

open Traversal

/-! ### Places -/

/-- What a wire value is read as. -/
inductive Place where
  /-- A value. -/
  | value
  /-- The literal of a single character. -/
  | character
  /-- A cell of a list. -/
  | cell
  /-- A type or a function. -/
  | type
  /-- The type of a type that is written as an object. -/
  | tag
  deriving DecidableEq

/-- The parts that a rule reads, with their places, and the type that has chosen it. -/
def partsByRule : DecodeRule → Json.Fields Place
  | .text | .reference | .unit => [("Z1K1", .type)]
  | .list => [("K1", .value), ("K2", .cell), ("Z10K1", .value), ("Z10K2", .cell), ("Z1K1", .type)]
  | .boolean => [("Z1K1", .type), ("Z40K1", .type)]
  | .codePoint => [("Z1K1", .type), ("Z86K1", .character)]
  | .pair => [("K1", .value), ("K2", .value), ("Z1K1", .type)]
  | .map => [("K1", .cell), ("Z1K1", .type)]
  | .always _ | .refuse _ | .within _ => []

/-- The rule that decodes an object. A record has none. -/
def ruleOf? (fields : Json.Fields Json) : Option DecodeRule :=
  match Wire.typeOf (.obj fields) with
  | .ok id => builtin.decoders.find? id
  | .error _ => none

/-- The parts of an object at a place, with the places where they are. A record remembers its type and
has no parts here. -/
def Place.parts (fields : Json.Fields Json) : Place → Json.Fields Place
  | .value => ((ruleOf? fields).map partsByRule).getD []
  | .character => [("Z1K1", .type)]
  | .cell => partsByRule .list
  | .type => [("Z1K1", .tag), ("Z4K1", .type), ("Z7K1", .type), ("Z8K5", .type)]
  | .tag => []

theorem parts_value {fields : Json.Fields Json} {id : String} {rule : DecodeRule}
    (hid : Wire.typeOf (.obj fields) = .ok id) (hrule : builtin.decoders.find? id = some rule) :
    Place.value.parts fields = partsByRule rule := by
  rw [Place.parts, ruleOf?, hid]
  show ((builtin.decoders.find? id).map partsByRule).getD [] = partsByRule rule
  rw [hrule]
  rfl

/-! ### Rewriting -/

/-- Whether a wire value at a place becomes another when one literal, reference or identifier in it is
written in its other form. -/
inductive Rewrite : Place → Json → Json → Prop
  /-- A literal, if it does not look like a reference. -/
  | literal {s : String} (h : TypeId.isToken s = false) : Rewrite .value (Wire.text s) (.str s)
  /-- A reference, if it looks like one. -/
  | reference {id : String} (h : TypeId.isToken id = true) :
    Rewrite .value (Wire.reference id) (.str id)
  /-- The literal of a single character. -/
  | character (s : String) : Rewrite .character (Wire.text s) (.str s)
  /-- The identifier of a type or a function. -/
  | type (id : String) : Rewrite .type (.str id) (Wire.reference id)
  /-- The identifier that says how a type is written. -/
  | tag (id : String) : Rewrite .tag (.str id) (Wire.reference id)
  /-- A part of an object. -/
  | part {place inner : Place} {fields : Json.Fields Json} (key : String) {part part' : Json}
    (hfield : fields.find? key = some part) (hplace : (place.parts fields).find? key = some inner)
    (h : Rewrite inner part part') : Rewrite place (.obj fields) (.obj (fields.insert key part'))

/-- Whether two wire values differ in the forms of any number of literals, references and
identifiers. -/
def Rewritten : Json → Json → Prop := Relation.EqvGen (Rewrite .value)

/-! ### Reading -/

/-- The relation of all errors. -/
abbrev AnyErrors : CodecError → CodecError → Prop := fun _ _ => True

/-- Whether two wire values at a place are read as the same. -/
def Place.Agree : Place → Json → Json → Prop
  | .value => DecodesAlike AnyErrors
  | .character => fun a b => SameOutcome AnyErrors (decodeText a) (decodeText b)
  | .cell => fun a b => Alike AnyErrors (List.Forall₂ (DecodesAlike AnyErrors))
      (Wire.listElements a) (Wire.listElements b)
  | .type => fun a b => Alike AnyErrors Eq (Wire.typeId a) (Wire.typeId b)
  | .tag => fun a b => Wire.idOfTag? a = Wire.idOfTag? b

theorem Place.Agree.refl (place : Place) (j : Json) : place.Agree j j := by
  cases place with
  | value => exact DecodesAlike.refl (fun _ => trivial) j
  | character => exact Alike.refl (fun _ => trivial) Value.same_refl _
  | cell =>
    refine Alike.refl (fun _ => trivial) (fun js => ?_) _
    exact List.forall₂_same.mpr fun j _ => DecodesAlike.refl (fun _ => trivial) j
  | type => exact Alike.refl (fun _ => trivial) (fun _ => rfl) _
  | tag => exact rfl

theorem Place.Agree.refl_option (place : Place) (j : Option Json) : Option.Rel place.Agree j j := by
  cases j with
  | none => exact .none
  | some j => exact .some (.refl place j)

/-- Whether the fields of two objects are read as the same: those that are parts at their places, and
all others as they are. -/
def FieldsAgree (parts : Json.Fields Place) (fields others : Json.Fields Json) : Prop :=
  ∀ key, match parts.find? key with
    | some place => Option.Rel place.Agree (fields.find? key) (others.find? key)
    | none => fields.find? key = others.find? key

theorem fieldsAgree_insert {parts : Json.Fields Place} {fields : Json.Fields Json} {key : String}
    {place : Place} {part part' : Json} (hfield : fields.find? key = some part)
    (hplace : parts.find? key = some place) (h : place.Agree part part') :
    FieldsAgree parts fields (fields.insert key part') := by
  intro other
  rw [Json.Fields.find?_insert]
  by_cases hkey : key = other
  · subst hkey
    rw [if_pos rfl, hfield, hplace]
    exact .some h
  · rw [if_neg hkey]
    split
    · exact Place.Agree.refl_option _ _
    · rfl

variable {fields others : Json.Fields Json}

/-- A field that is there in both or in neither. -/
theorem agree_requiredField {place : Place} {key : String}
    (h : Option.Rel place.Agree (fields.find? key) (others.find? key)) :
    Alike AnyErrors place.Agree (requiredField (.obj fields) key)
      (requiredField (.obj others) key) := by
  unfold requiredField Json.field?
  dsimp only
  generalize fields.find? key = x, others.find? key = y at h
  cases h with
  | some h => exact .ok h
  | none => exact .error trivial

theorem agree_requiredText {key : String} (h : fields.find? key = others.find? key) :
    Alike AnyErrors Eq (requiredText (.obj fields) key) (requiredText (.obj others) key) := by
  unfold requiredText requiredField Json.field?
  dsimp only
  rw [h]
  cases others.find? key with
  | none => exact .error trivial
  | some j =>
    cases j with
    | str s => exact .ok rfl
    | _ => exact .error trivial

theorem agree_decodeText (h : fields.find? "Z6K1" = others.find? "Z6K1") :
    SameOutcome AnyErrors (decodeText (.obj fields)) (decodeText (.obj others)) :=
  (agree_requiredText h).map fun s _ hs => hs ▸ Value.same_refl (.text s)

theorem agree_type (h : FieldsAgree (Place.type.parts fields) fields others) :
    Place.type.Agree (.obj fields) (.obj others) := by
  have htag : (fields.find? "Z1K1").bind Wire.idOfTag? = (others.find? "Z1K1").bind Wire.idOfTag? := by
    have htag : Option.Rel Place.tag.Agree (fields.find? "Z1K1") (others.find? "Z1K1") := h "Z1K1"
    generalize fields.find? "Z1K1" = x, others.find? "Z1K1" = y at htag
    cases htag with
    | some h => exact h
    | none => rfl
  have hid : fields.find? "Z9K1" = others.find? "Z9K1" := h "Z9K1"
  have hnext : ∀ tag, Option.Rel Place.type.Agree ((Wire.nextTypeField? tag).bind fields.find?)
      ((Wire.nextTypeField? tag).bind others.find?) := by
    intro tag
    unfold Wire.nextTypeField?
    split_ifs
    · exact h "Z7K1"
    · exact h "Z4K1"
    · exact h "Z8K5"
    · exact .none
  show Alike AnyErrors Eq (Wire.typeId (.obj fields)) (Wire.typeId (.obj others))
  rw [Wire.typeId_obj_eq, Wire.typeId_obj_eq, ← htag, ← hid]
  cases (fields.find? "Z1K1").bind Wire.idOfTag? with
  | none => exact .error trivial
  | some tag =>
    dsimp only
    split
    · split
      · exact .ok rfl
      · exact .error trivial
    · replace hnext := hnext tag
      generalize (Wire.nextTypeField? tag).bind fields.find? = x,
        (Wire.nextTypeField? tag).bind others.find? = y at hnext
      cases hnext with
      | some h => exact h
      | none => exact .error trivial

theorem agree_cell (h : FieldsAgree (partsByRule .list) fields others) :
    Place.cell.Agree (.obj fields) (.obj others) := by
  have hor : ∀ {place : Place} {a a' b b' : Option Json}, Option.Rel place.Agree a b →
      Option.Rel place.Agree a' b' → Option.Rel place.Agree (a.or a') (b.or b') := by
    rintro place _ _ _ _ (h | _) h'
    · exact .some h
    · exact h'
  have hhead : Option.Rel Place.value.Agree (Wire.cellHead? (.obj fields))
      (Wire.cellHead? (.obj others)) := hor (h "K1") (h "Z10K1")
  have htail : Option.Rel Place.cell.Agree (Wire.cellTail? (.obj fields))
      (Wire.cellTail? (.obj others)) := hor (h "K2") (h "Z10K2")
  show Alike AnyErrors _ (Wire.listElements (.obj fields)) (Wire.listElements (.obj others))
  rw [Wire.listElements_obj_eq, Wire.listElements_obj_eq]
  generalize Wire.cellHead? (.obj fields) = a, Wire.cellHead? (.obj others) = b at hhead
  generalize Wire.cellTail? (.obj fields) = c, Wire.cellTail? (.obj others) = d at htail
  cases hhead with
  | none => exact .ok .nil
  | some hhead =>
    cases htail with
    | none => exact .ok (.cons hhead .nil)
    | some htail => exact htail.map fun _ _ h => .cons hhead h

/-- The rule for an object yields the same when its parts are read as the same. -/
theorem agree_objectValue {rule : DecodeRule} (h : FieldsAgree (partsByRule rule) fields others) :
    SameOutcome AnyErrors (objectValue builtin.decode fields (some rule))
      (objectValue builtin.decode others (some rule)) := by
  have hrefl : ∀ value, SameOutcome AnyErrors (.ok value) (.ok value) :=
    fun value => .ok value.same_refl
  cases rule with
  | text => exact agree_decodeText (h "Z6K1")
  | reference =>
    exact (agree_requiredText (h "Z9K1")).map fun id _ hid => hid ▸ Value.same_refl (valueOfId id)
  | list => exact (agree_cell h).bind fun _ _ hitems => alike_items hitems
  | unit => exact hrefl _
  | boolean =>
    have htruth : Option.Rel Place.type.Agree (fields.find? "Z40K1") (others.find? "Z40K1") :=
      h "Z40K1"
    refine (agree_requiredField htruth).bind fun a b hab => ?_
    refine Alike.bind (R := Eq) hab fun id _ hid => ?_
    subst hid
    split_ifs
    · exact hrefl _
    · exact hrefl _
    · exact .error trivial
  | codePoint =>
    have hliteral : Option.Rel Place.character.Agree (fields.find? "Z86K1")
        (others.find? "Z86K1") := h "Z86K1"
    exact (agree_requiredField hliteral).bind fun _ _ hab => hab
  | pair =>
    have hslot : ∀ key, Option.Rel Place.value.Agree (fields.find? key) (others.find? key) →
        SameOutcome AnyErrors (do builtin.decode (← requiredField (.obj fields) key))
          (do builtin.decode (← requiredField (.obj others) key)) :=
      fun key hkey => (agree_requiredField hkey).bind fun _ _ hab => hab
    simpa only [objectValue, bind_assoc] using
      alike_slots (hslot "K1" (h "K1")) (hslot "K2" (h "K2")) _ _
  | map =>
    have hpairs : Option.Rel Place.cell.Agree (fields.find? "K1") (others.find? "K1") := h "K1"
    simp only [objectValue]
    generalize fields.find? "K1" = x, others.find? "K1" = y at hpairs
    cases hpairs with
    | none => exact hrefl _
    | some hpairs => exact Alike.bind hpairs fun _ _ hitems => alike_entries (fun _ => trivial) hitems
  | always value => exact hrefl value
  | refuse detail => exact .error trivial
  | within key =>
    have hkey : fields.find? key = others.find? key := h key
    simp only [objectValue, hkey]
    exact Alike.refl (fun _ => trivial) Value.same_refl _

/-- An object that is decoded by a rule yields the same when its parts are read as the same. -/
theorem agree_value {rule : DecodeRule} (hrule : ruleOf? fields = some rule)
    (h : FieldsAgree (partsByRule rule) fields others) :
    Place.value.Agree (.obj fields) (.obj others) := by
  have htag : Option.Rel Place.type.Agree (fields.find? "Z1K1") (others.find? "Z1K1") := by
    cases rule with
    | always _ | refuse _ | within _ =>
      have hsame : fields.find? "Z1K1" = others.find? "Z1K1" := h "Z1K1"
      rw [hsame]
      exact Place.Agree.refl_option _ _
    | _ => exact h "Z1K1"
  have htype : Alike AnyErrors Eq (Wire.typeOf (.obj fields)) (Wire.typeOf (.obj others)) := by
    unfold Wire.typeOf Json.field?
    dsimp only
    generalize fields.find? "Z1K1" = x, others.find? "Z1K1" = y at htag
    cases htag with
    | some h => exact h
    | none => exact .error trivial
  unfold ruleOf? at hrule
  split at hrule
  · rename_i id hid
    obtain ⟨_, hid', rfl⟩ := htype.exists_of_ok hid
    show SameOutcome AnyErrors (builtin.decode (.obj fields)) (builtin.decode (.obj others))
    rw [decode_obj hid, decode_obj hid', hrule]
    exact agree_objectValue h
  · cases hrule

/-- An object is read as the same when its parts are. -/
theorem agree_obj {place inner : Place} {key : String}
    (hplace : (place.parts fields).find? key = some inner)
    (h : FieldsAgree (place.parts fields) fields others) :
    place.Agree (.obj fields) (.obj others) := by
  cases place with
  | value =>
    cases hrule : ruleOf? fields with
    | none =>
      rw [Place.parts, hrule] at hplace
      cases hplace
    | some rule =>
      rw [Place.parts, hrule] at h
      exact agree_value hrule h
  | character => exact agree_decodeText (h "Z6K1")
  | cell => exact agree_cell h
  | type => exact agree_type h
  | tag => cases hplace

/-! ### Rewriting and reading -/

theorem Rewrite.agree {place : Place} {wire other : Json} (h : Rewrite place wire other) :
    place.Agree wire other := by
  induction h with
  | @literal s h =>
    show SameOutcome AnyErrors (builtin.decode (Wire.text s)) (builtin.decode (.str s))
    rw [decode_text, decode, bareValue, if_neg (by rw [h]; decide)]
    exact .ok (Value.same_refl _)
  | @reference id h =>
    show SameOutcome AnyErrors (builtin.decode (Wire.reference id)) (builtin.decode (.str id))
    rw [decode_reference, decode, bareValue, if_pos h]
    exact .ok (Value.same_refl _)
  | character s => exact .ok (Value.same_refl (.text s))
  | type id =>
    show Alike AnyErrors Eq (Wire.typeId (.str id)) (Wire.typeId (Wire.reference id))
    rw [Wire.typeId_str, Wire.typeId_reference]
    exact .ok rfl
  | tag id => exact rfl
  | part key hfield hplace _ ih => exact agree_obj hplace (fieldsAgree_insert hfield hplace ih)

/-- What is rewritten decodes to an equal native value, or does not decode either. -/
theorem Rewritten.decodesAlike {wire other : Json} (h : Rewritten wire other) :
    DecodesAlike AnyErrors wire other := by
  induction h with
  | rel _ _ h => exact h.agree
  | refl _ => exact .refl (fun _ => trivial) _
  | symm _ _ _ ih => exact ih.symm fun _ _ _ => trivial
  | trans _ _ _ _ _ ih ih' => exact ih.trans (fun _ _ _ _ _ => trivial) ih'

/-- When any literals, references and identifiers of types in a wire value are written bare instead of
as objects, or the other way round, it decodes to an equal native value. -/
theorem decode_rewritten {wire other : Json} (h : Rewritten wire other) {value : Value}
    (hdecode : builtin.decode wire = .ok value) :
    ∃ value', builtin.decode other = .ok value' ∧ value'.same value = true := by
  obtain ⟨value', hvalue', hsame⟩ := h.decodesAlike.exists_of_ok hdecode
  exact ⟨value', hvalue', Value.same_symm hsame⟩

/-- The type of pairs of a text and a truth value. -/
def textAndFlag : Json := Wire.pairOf (.str TypeId.string) (.str TypeId.boolean)

/-- A pair whose slots are objects. -/
def normalPair : Json := pairWire textAndFlag (Wire.text "a") (Wire.reference TypeId.true)

/-- The same pair with bare slots, of a type that is the call of a bare identifier. -/
def canonicalPair : Json :=
  pairWire (.obj [("Z1K1", Wire.reference TypeId.call), ("Z7K1", .str TypeId.pair),
    ("Z882K1", Wire.reference TypeId.string), ("Z882K2", Wire.reference TypeId.boolean)])
    (.str "a") (.str TypeId.true)

/-- Both decode to the pair. -/
theorem decode_rewritten_normalPair :
    builtin.decode normalPair = .ok (.pair (.text "a") (.flag true) (some textAndFlag)) ∧
    ∃ value, builtin.decode canonicalPair = .ok value ∧
      value.same (.pair (.text "a") (.flag true) (some textAndFlag)) = true := by
  have hparts : ∀ {first second : Json}, Place.value.parts [("K1", first), ("K2", second),
      ("Z1K1", textAndFlag)] = partsByRule .pair := by
    intro first second
    exact parts_value (Wire.typeId_pairOf ..) rfl
  have hfirst : Rewrite .value normalPair
      (pairWire textAndFlag (.str "a") (Wire.reference TypeId.true)) :=
    .part "K1" rfl (by rw [hparts]; rfl) (.literal (by decide))
  have hsecond : Rewrite .value (pairWire textAndFlag (.str "a") (Wire.reference TypeId.true))
      (pairWire textAndFlag (.str "a") (.str TypeId.true)) :=
    .part "K2" rfl (by rw [hparts]; rfl) (.reference (by decide))
  have htype : Rewrite .value canonicalPair (pairWire textAndFlag (.str "a") (.str TypeId.true)) :=
    .part "Z1K1" rfl (by cbv) (.part "Z7K1" rfl rfl (.type TypeId.pair))
  have hrewritten : Rewritten normalPair canonicalPair :=
    .trans _ _ _ (.rel _ _ hfirst) (.trans _ _ _ (.rel _ _ hsecond) (.symm _ _ (.rel _ _ htype)))
  have hdecode : builtin.decode normalPair =
      .ok (.pair (.text "a") (.flag true) (some textAndFlag)) := by
    have htextAndFlag : Wire.typeId textAndFlag = .ok TypeId.pair := Wire.typeId_pairOf ..
    rw [normalPair, decode_pairWire htextAndFlag, decode_text, decode_reference]
    rfl
  exact ⟨hdecode, decode_rewritten hrewritten hdecode⟩

end Polyglot.Codec
