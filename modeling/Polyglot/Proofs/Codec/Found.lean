import Mathlib
import Polyglot.Proofs.Codec.Settled

/-!
# Types that are found

Encoding by shape finds the types of what it writes: a list, a pair and a map are written with the
types of their parts.  There is a rule for each such type as well, and it writes the same.  So a value
that is encoded by its shape is encoded to the very same wire value for the type found there
(`Explicit.encode_tagOf`), at every level: for the parts of a list, which share the type of its
elements (`Found.shared`), as for the list.

Both sides have to see the same type.  Types are told apart by their texts, so two numbers with one
text may not occur in them, and a record that declares a bare identifier is written with it, but asked
for by the reference.  `Annotated` says what values declare instead: every record a reference, to
a type without a rule.
-/

namespace Polyglot.Codec

/-! ### Types that are found -/

theorem referenceForm_referenceForm (type : Json) :
    Wire.referenceForm (Wire.referenceForm type) = Wire.referenceForm type := by
  cases type <;> rfl

/-- Types that are read back from their texts have one key exactly when their reference forms are
equal. -/
theorem typeKey_eq_iff {a b : Json} (ha : a.Legible) (hb : b.Legible) :
    Wire.typeKey a = Wire.typeKey b ↔ Wire.referenceForm a = Wire.referenceForm b := by
  have hP := Json.compositional_legible
  exact ⟨Json.eq_of_render_eq (hP.referenceForm ha) (hP.referenceForm hb), congrArg Json.render⟩

/-- Either no common type is found, or it is the type of each. -/
theorem sharedType_cases {tags : List Json} (h : ∀ tag ∈ tags, tag.Legible) :
    sharedType tags = Wire.reference TypeId.any ∨
      tags ≠ [] ∧ ∀ tag ∈ tags, Wire.referenceForm tag = sharedType tags := by
  cases tags with
  | nil => exact .inl rfl
  | cons tag rest =>
    obtain ⟨htag, hrest⟩ := List.forall_mem_cons.mp h
    by_cases hall : (rest.all fun other => Wire.typeKey other == Wire.typeKey tag) = true
    · have hshared : sharedType (tag :: rest) = Wire.referenceForm tag := if_pos hall
      refine .inr ⟨by rintro ⟨⟩, ?_⟩
      rw [hshared]
      refine List.forall_mem_cons.mpr ⟨rfl, fun other hother => ?_⟩
      have hkey := List.all_eq_true.mp hall other hother
      exact (typeKey_eq_iff (hrest other hother) htag).mp (beq_iff_eq.mp hkey)
    · exact .inl (if_neg hall)

/-! ### Records -/

theorem record_rule {declared : Option Json} {fields : Json.Fields Value} {type wire : Json}
    (h : builtin.encode (.record declared fields) type = .ok wire) :
    ∃ id, Wire.typeId type = .ok id ∧
      (builtin.encoders.find? id = none ∨ builtin.encoders.find? id = some .inferred) := by
  rw [encode_eq, step] at h
  split at h
  · cases h
  · rename_i id hid
    refine ⟨id, hid, ?_⟩
    split at h
    · rename_i rule hrule
      have hid' := id_of_rule hrule
      cases rule with
      | inferred => exact .inr hrule
      | always | refuse | within => exact hid'.elim
      | _ => cases h
    · exact .inl (by assumption)

/-- A record is encoded for a type without a rule, or by its shape for the one that it declares. -/
theorem encode_record_cases {declared : Option Json} {fields : Json.Fields Value}
    {type wire : Json} (h : builtin.encode (.record declared fields) type = .ok wire) :
    (∃ id, Wire.typeId type = .ok id ∧ builtin.encoders.find? id = none) ∨
      Wire.typeId type = .ok TypeId.any ∧ ∃ other id, declared = some other ∧
        Wire.isAny other = false ∧ Wire.typeId other = .ok id ∧
        builtin.encoders.find? id = none ∧
        builtin.encode (.record declared fields) other = .ok wire := by
  obtain ⟨id, hid, hnone | hrule⟩ := record_rule h
  · exact .inl ⟨id, hid, hnone⟩
  · have htype : Wire.typeId type = .ok TypeId.any :=
      hid.trans (congrArg Except.ok (id_of_rule hrule))
    refine .inr ⟨htype, ?_⟩
    have hstep := step_of_rule .inferred htype rfl (.record declared fields)
    cases hother : declared.filter (!Wire.isAny ·) with
    | none =>
      simp only [ruleStep, inferredStep, hother] at hstep
      rw [encode_eq, hstep] at h
      cases h
    | some other =>
      obtain ⟨rfl, hform⟩ := Option.filter_eq_some_iff.mp hother
      have hform : Wire.isAny other = false := by simpa using hform
      rw [encode_of_handOn htype hform] at h
      obtain ⟨id', hid', hnone | hrule'⟩ := record_rule h
      · exact ⟨other, id', rfl, hform, hid', hnone, h⟩
      · -- A type of all objects in another form is handed on for ever.
        have hdeclared : Wire.typeId other = .ok TypeId.any :=
          hid'.trans (congrArg Except.ok (id_of_rule hrule'))
        rw [(ForEver.loop hdeclared hdeclared hform).encode_eq_endless] at h
        cases h

/-! ### What is found can be asked for -/

/-- A value without parts is encoded to the same by the rule for the type found. -/
theorem encode_tagOf_leaf (id : String) (rule : EncodeRule) {value : Value} {wire : Json}
    (htag : Wire.referenceForm (tagOf wire) = Wire.reference id)
    (hrule : builtin.encoders.find? id = some rule)
    (hstep : ruleStep value (Wire.reference id) rule = .done (.ok wire)) :
    builtin.encode value (Wire.referenceForm (tagOf wire)) = .ok wire := by
  rw [htag, encode_eq, step_of_rule rule (Wire.typeId_reference id) hrule, hstep]
  rfl

/-- Whether each value is encoded to its wire value by its shape, and also for the type found. -/
structure Found (values : List Value) (wires : List Json) : Prop where
  /-- By its shape. -/
  any : List.Forall₂ (fun v w => builtin.encodeAny v = .ok w) values wires
  /-- For the type found. -/
  own {v : Value} {w : Json} (h : (v, w) ∈ values.zip wires) :
    builtin.encode v (Wire.referenceForm (tagOf w)) = .ok w
  /-- The type found is told by its text. -/
  legible {tag : Json} (h : tag ∈ wires.map tagOf) : tag.Legible

theorem found_of_forall₂ {values : List Value} {wires : List Json}
    (hany : List.Forall₂ (fun v w => builtin.encodeAny v = .ok w) values wires)
    (hl : ∀ v ∈ values, v.EveryDeclared Json.Legible)
    (hown : ∀ v ∈ values, ∀ w, builtin.encodeAny v = .ok w →
      builtin.encode v (Wire.referenceForm (tagOf w)) = .ok w) : Found values wires := by
  have hP := Json.compositional_legible
  refine ⟨hany, fun {v w} hzip => ?_, fun {tag} htag => ?_⟩
  · exact hown v (List.of_mem_zip hzip).1 w (List.forall₂_zip hany hzip)
  · obtain ⟨w, hw, rfl⟩ := List.mem_map.mp htag
    obtain ⟨v, hzip⟩ := Traversal.exists_mem_zip_of_mem_right hany hw
    exact hP.tagOf (hP.encode (hl v (List.of_mem_zip hzip).1) (hP.reference _)
      (List.forall₂_zip hany hzip))

/-- The values are encoded to the same for the type that is found in all of them. -/
theorem Found.shared {values : List Value} {wires : List Json} (h : Found values wires) :
    List.Forall₂ (fun v w => builtin.encode v (sharedType (wires.map tagOf)) = .ok w)
        values wires ∧
      Wire.referenceForm (sharedType (wires.map tagOf)) = sharedType (wires.map tagOf) := by
  rcases sharedType_cases fun tag htag => h.legible htag with hany | ⟨hne, hall⟩
  · rw [hany]
    exact ⟨h.any, rfl⟩
  · refine ⟨List.forall₂_iff_zip.mpr ⟨h.any.length_eq, fun {v w} hzip => ?_⟩, ?_⟩
    · rw [← hall (tagOf w) (List.mem_map_of_mem (List.of_mem_zip hzip).2)]
      exact h.own hzip
    · obtain ⟨tag, htag⟩ := List.exists_mem_of_ne_nil _ hne
      rw [← hall tag htag]
      exact referenceForm_referenceForm tag

theorem tagOf_listWith (type : Json) (elements : List Json) :
    tagOf (Wire.listWith type elements) = type := by
  cases elements <;> rfl

theorem Found.list {items : List Value} {wires : List Json} (h : Found items wires) :
    builtin.encode (.list items) (Wire.referenceForm (tagOf (inferredList wires))) =
      .ok (inferredList wires) := by
  obtain ⟨hitems, hform⟩ := h.shared
  have htag : Wire.referenceForm (tagOf (inferredList wires)) =
      Wire.listOf (sharedType (wires.map tagOf)) :=
    congrArg Wire.referenceForm (tagOf_listWith ..)
  have hstep := step_of_rule .list (Wire.typeId_listOf (sharedType (wires.map tagOf))) rfl
    (.list items)
  simp only [ruleStep, Wire.argumentOf?_listOf, hform] at hstep
  rw [htag, encode_of_items hstep, Traversal.mapM_eq_ok_iff.mpr hitems]
  rfl

theorem Found.map {entries : Value.Entries} {wires : List (Json × Json)}
    (hk : Found (entries.map (·.1)) (wires.map (·.1)))
    (hv : Found (entries.map (·.2)) (wires.map (·.2))) :
    builtin.encode (.map entries) (Wire.referenceForm (tagOf (inferredMap wires))) =
      .ok (inferredMap wires) := by
  obtain ⟨hkeys, hkform⟩ := hk.shared
  obtain ⟨hvalues, hvform⟩ := hv.shared
  rw [List.map_map] at hkeys hkform hvalues hvform
  rw [List.forall₂_map_left_iff, List.forall₂_map_right_iff] at hkeys hvalues
  have htag : Wire.referenceForm (tagOf (inferredMap wires)) =
      Wire.mapOf (sharedType (wires.map (tagOf ∘ (·.1)))) (sharedType (wires.map (tagOf ∘ (·.2)))) :=
    rfl
  have hstep := step_of_rule .map (Wire.typeId_mapOf (sharedType (wires.map (tagOf ∘ (·.1))))
    (sharedType (wires.map (tagOf ∘ (·.2))))) rfl (.map entries)
  simp only [ruleStep, Wire.argumentOf?_mapOf_key, Wire.argumentOf?_mapOf_value, hkform, hvform]
    at hstep
  have hentries : (entries.mapM fun e => do
      let k ← builtin.encode e.1 (sharedType (wires.map (tagOf ∘ (·.1))))
      let v ← builtin.encode e.2 (sharedType (wires.map (tagOf ∘ (·.2))))
      pure (k, v)) = Except.ok wires := by
    rw [Traversal.mapM_eq_ok_iff]
    refine List.forall₂_iff_zip.mpr ⟨hkeys.length_eq, fun {e w} hzip => ?_⟩
    exact Traversal.pair_eq_ok_iff.mpr
      ⟨List.forall₂_zip hkeys hzip, List.forall₂_zip hvalues hzip⟩
  rw [htag, encode_of_entries hstep, hentries]
  rfl

/-- The step for any object is that of the shape. -/
theorem step_any (value : Value) :
    builtin.step value (Wire.reference TypeId.any) = inferredStep value :=
  step_of_rule .inferred (Wire.typeId_reference TypeId.any) rfl value

theorem step_any_typed {type : Json} {types : Json × Json} (hslots : slotTypes? type = some types)
    (first second : Value) :
    builtin.step (.pair first second (some type)) (Wire.reference TypeId.any) =
      .slots first second types.1 types.2 (pairWire type) :=
  (step_any _).trans (slotStep_of_some hslots first second)

theorem step_any_untyped {declared : Option Json} (hslots : slotTypes? (declared.getD .null) = none)
    (first second : Value) :
    builtin.step (.pair first second declared) (Wire.reference TypeId.any) =
      .slots first second (Wire.reference TypeId.any) (Wire.reference TypeId.any) inferredPair :=
  (step_any _).trans (slotStep_of_none hslots first second)

/-- A pair with slot types is encoded to the same for the type that it declares. -/
theorem encode_tagOf_typed {first second : Value} {type wire : Json} {types : Json × Json}
    (htype : Wire.typeId type = .ok TypeId.pair) (hslots : slotTypes? type = some types)
    (h : builtin.encodeAny (.pair first second (some type)) = .ok wire) :
    builtin.encode (.pair first second (some type)) (Wire.referenceForm (tagOf wire)) =
      .ok wire := by
  have hown : builtin.step (.pair first second (some type)) type =
      .slots first second types.1 types.2 (pairWire type) :=
    (step_of_rule .pair htype rfl _).trans (slotStep_of_some hslots first second)
  obtain ⟨w1, w2, hw1, hw2, rfl⟩ := exists_of_slots (step_any_typed hslots first second) h
  have htag : Wire.referenceForm (tagOf (pairWire type w1 w2)) = type :=
    referenceForm_of_slotTypes? hslots
  rw [htag, encode_of_slots hown, hw1, hw2]
  rfl

/-- A pair without slot types is encoded to the same for those found in its slots if these are. -/
theorem encode_tagOf_untyped {first second : Value} {declared : Option Json} {wire : Json}
    (hslots : slotTypes? (declared.getD .null) = none)
    (h1 : ∀ w, builtin.encodeAny first = .ok w →
      builtin.encode first (Wire.referenceForm (tagOf w)) = .ok w)
    (h2 : ∀ w, builtin.encodeAny second = .ok w →
      builtin.encode second (Wire.referenceForm (tagOf w)) = .ok w)
    (h : builtin.encodeAny (.pair first second declared) = .ok wire) :
    builtin.encode (.pair first second declared) (Wire.referenceForm (tagOf wire)) =
      .ok wire := by
  obtain ⟨w1, w2, hw1, hw2, rfl⟩ := exists_of_slots (step_any_untyped hslots first second) h
  have htag : Wire.referenceForm (tagOf (inferredPair w1 w2)) =
      Wire.pairOf (tagOf w1) (tagOf w2) := rfl
  have hown : builtin.step (.pair first second declared) (Wire.pairOf (tagOf w1) (tagOf w2)) =
      .slots first second (Wire.referenceForm (tagOf w1)) (Wire.referenceForm (tagOf w2))
        (pairWire (Wire.pairOf (tagOf w1) (tagOf w2))) :=
    (step_of_rule .pair (Wire.typeId_pairOf ..) rfl _).trans
      (slotStep_of_some (slotTypes?_pairOf ..) first second)
  rw [htag, encode_of_slots hown, h1 w1 hw1, h2 w2 hw2]
  rfl

/-- A record is encoded by its shape to what it is encoded to for the type that it declares, and this
type is found in the wire value. -/
theorem encodeAny_record {declared : Option Json} {fields : Json.Fields Value} {wire : Json}
    (hk : fields.Ascending) (hno : ∀ f ∈ fields, f.1 ≠ "Z1K1")
    (h : builtin.encodeAny (.record declared fields) = .ok wire) :
    declared = some (tagOf wire) ∧ builtin.encode (.record declared fields) (tagOf wire) = .ok wire := by
  rcases encode_record_cases h with ⟨id, hid, hnone⟩ | ⟨-, other, id, rfl, -, hid, hnone, hother⟩
  · rw [Wire.typeId_reference] at hid
    obtain rfl := Except.ok.inj hid
    cases hnone
  · obtain ⟨keys, wires, -, -, hnoZ1K1, hobject⟩ := exists_written_fields hid hnone hk hno hother
    have htag : tagOf wire = other := by rw [hobject, tagOf_object hnoZ1K1]
    rw [htag]
    exact ⟨rfl, hother⟩

/-! ### At every level -/

/-- Whether every pair with slot types declares a type of pairs and no record declares a bare type, not
counting the parts of records and of pairs with slot types. -/
inductive Explicit : Value → Prop
  | text (s : String) : Explicit (.text s)
  | reference (id : String) : Explicit (.reference id)
  | flag (b : Bool) : Explicit (.flag b)
  | unit : Explicit .unit
  | list {items : List Value} (h : ∀ v ∈ items, Explicit v) : Explicit (.list items)
  | map {entries : Value.Entries} (hk : ∀ e ∈ entries, Explicit e.1)
    (hv : ∀ e ∈ entries, Explicit e.2) : Explicit (.map entries)
  | typed {first second : Value} {type : Json} {types : Json × Json}
    (htype : Wire.typeId type = .ok TypeId.pair) (hslots : slotTypes? type = some types) :
    Explicit (.pair first second (some type))
  | pair {first second : Value} {declared : Option Json}
    (hslots : slotTypes? (declared.getD .null) = none) (h1 : Explicit first) (h2 : Explicit second) :
    Explicit (.pair first second declared)
  | record {declared : Option Json} {fields : Json.Fields Value}
    (hbare : ∀ id, declared ≠ some (.str id)) (hk : fields.Ascending)
    (hno : ∀ f ∈ fields, f.1 ≠ "Z1K1") : Explicit (.record declared fields)

/-- What a value is encoded to by its shape it is also encoded to for the type found. -/
theorem Explicit.encode_tagOf {value : Value} (h : Explicit value)
    (hl : value.EveryDeclared Json.Legible) : ∀ wire, builtin.encodeAny value = .ok wire →
      builtin.encode value (Wire.referenceForm (tagOf wire)) = .ok wire := by
  induction h with
  | text s =>
    intro wire hwire
    obtain rfl := Except.ok.inj ((encodeAny_eq _).symm.trans hwire)
    exact encode_tagOf_leaf TypeId.string .text rfl rfl rfl
  | reference id =>
    intro wire hwire
    obtain rfl := Except.ok.inj ((encodeAny_eq _).symm.trans hwire)
    exact encode_tagOf_leaf TypeId.reference .reference rfl rfl rfl
  | flag b =>
    intro wire hwire
    obtain rfl := Except.ok.inj ((encodeAny_eq _).symm.trans hwire)
    exact encode_tagOf_leaf TypeId.boolean .boolean rfl rfl rfl
  | unit =>
    intro wire hwire
    obtain rfl := Except.ok.inj ((encodeAny_eq _).symm.trans hwire)
    exact encode_tagOf_leaf TypeId.unit .unit rfl rfl rfl
  | list _ ih =>
    intro wire hwire
    cases hl with
    | list hl =>
    obtain ⟨wires, hwires, rfl⟩ := exists_of_items (step_any _) hwire
    exact Found.list (found_of_forall₂ hwires hl fun v hv => ih v hv (hl v hv))
  | map _ _ ihk ihv =>
    intro wire hwire
    cases hl with
    | map hlk hlv =>
    obtain ⟨wires, hwires, rfl⟩ := exists_of_entries (step_any _) hwire
    refine Found.map (found_of_forall₂ ?_ ?_ ?_) (found_of_forall₂ ?_ ?_ ?_)
    · rw [List.forall₂_map_left_iff, List.forall₂_map_right_iff]
      exact hwires.imp fun _ _ hw => hw.1
    · exact List.forall_mem_map.mpr hlk
    · exact List.forall_mem_map.mpr fun e he => ihk e he (hlk e he)
    · rw [List.forall₂_map_left_iff, List.forall₂_map_right_iff]
      exact hwires.imp fun _ _ hw => hw.2
    · exact List.forall_mem_map.mpr hlv
    · exact List.forall_mem_map.mpr fun e he => ihv e he (hlv e he)
  | typed htype hslots => exact fun _ => encode_tagOf_typed htype hslots
  | pair hslots _ _ ih1 ih2 =>
    intro wire hwire
    cases hl with
    | pair hl1 hl2 => exact encode_tagOf_untyped hslots (ih1 hl1) (ih2 hl2) hwire
  | record hbare hk hno =>
    intro wire hwire
    obtain ⟨hdeclared, hencode⟩ := encodeAny_record hk hno hwire
    have hform : Wire.referenceForm (tagOf wire) = tagOf wire := by
      cases htag : tagOf wire with
      | str s => exact absurd (htag ▸ hdeclared) (hbare s)
      | _ => rfl
    rw [hform, hencode]

/-! ### Annotated values -/

/-- Whether the types that pairs declare have a property, and each record declares a reference to a
type without a rule and has no field for its type. -/
inductive Annotated (P : Json → Prop) : Value → Prop
  | text (s : String) : Annotated P (.text s)
  | reference (id : String) : Annotated P (.reference id)
  | flag (b : Bool) : Annotated P (.flag b)
  | unit : Annotated P .unit
  | list {items : List Value} (h : ∀ v ∈ items, Annotated P v) : Annotated P (.list items)
  | pair {first second : Value} {declared : Option Json} (h : ∀ type, declared = some type → P type)
    (h1 : Annotated P first) (h2 : Annotated P second) : Annotated P (.pair first second declared)
  | map {entries : Value.Entries} (hk : ∀ e ∈ entries, Annotated P e.1)
    (hv : ∀ e ∈ entries, Annotated P e.2) : Annotated P (.map entries)
  | record {id : String} {fields : Json.Fields Value} (hid : builtin.hasEncoder id = false)
    (hk : fields.Ascending) (hno : ∀ f ∈ fields, f.1 ≠ "Z1K1")
    (h : ∀ f ∈ fields, Annotated P f.2) : Annotated P (.record (some (Wire.reference id)) fields)

/-- All declared types of an annotated value have a property of references and of the types of its
pairs. -/
theorem Annotated.everyDeclared {P Q : Json → Prop} (hP : ∀ type, P type → Q type)
    (hQ : ∀ id, Q (Wire.reference id)) {value : Value} (h : Annotated P value) :
    value.EveryDeclared Q := by
  induction h with
  | text s => exact .text s
  | reference id => exact .reference id
  | flag b => exact .flag b
  | unit => exact .unit
  | list _ ih => exact .list ih
  | pair h _ _ ih1 ih2 => exact .pair ih1 ih2 fun type htype => hP type (h type htype)
  | map _ _ ihk ihv => exact .map ihk ihv
  | record _ _ _ _ ih =>
    refine .record ?_ ih
    rintro _ ⟨⟩
    exact hQ _

/-- Whether a type is one of pairs and has no doubles in it. -/
def IsPairType (type : Json) : Prop :=
  Wire.typeId type = .ok TypeId.pair ∧ type.WellFormed ∧ ∀ n ∈ type.numbers, ∃ k, n = .int k

theorem Annotated.explicit {value : Value} (h : Annotated IsPairType value) : Explicit value := by
  induction h with
  | text s => exact .text s
  | reference id => exact .reference id
  | flag b => exact .flag b
  | unit => exact .unit
  | list _ ih => exact .list ih
  | @pair _ _ declared h _ _ ih1 ih2 =>
    cases declared with
    | none => exact .pair (by decide +kernel) ih1 ih2
    | some type =>
      cases hslots : slotTypes? type with
      | none => exact .pair hslots ih1 ih2
      | some types => exact .typed (h type rfl).1 hslots
  | map _ _ ihk ihv => exact .map ihk ihv
  | record _ hk hno => exact .record (by rintro _ ⟨⟩) hk hno

theorem argumentOf?_str (id key : String) : Wire.argumentOf? (.str id) key = none := by
  rw [Wire.argumentOf?]
  rintro _ ⟨⟩

theorem argumentOf?_reference (id key : String) :
    Wire.argumentOf? (Wire.reference id) key = none := by
  rw [Wire.reference, Wire.argumentOf?]
  rfl

/-- Other values than records are encoded to the same for a bare type as for the reference to it. -/
theorem encode_referenceForm {value : Value} (hrecord : ∀ d fs, value ≠ .record d fs) (type : Json) :
    builtin.encode value (Wire.referenceForm type) = builtin.encode value type := by
  cases type with
  | str id =>
    have hstep : builtin.step value (Wire.reference id) = builtin.step value (.str id) := by
      rw [step, step, Wire.typeId_str, Wire.typeId_reference]
      simp only
      split
      · rename_i rule hrule
        -- The rules that look at the type ask for its arguments, and neither form has any.
        have hid := id_of_rule hrule
        cases rule with
        | list | map => simp only [ruleStep, argumentOf?_str, argumentOf?_reference]
        | pair => simp only [ruleStep, slotStep, argumentOf?_str, argumentOf?_reference]
        | within => exact hid.elim
        | _ => rfl
      · cases value with
        | record d fs => exact absurd rfl (hrecord d fs)
        | _ => rfl
    rw [Wire.referenceForm, encode_eq, encode_eq, hstep]
  | _ => rfl

/-- What is encoded for the type found has such a type. -/
theorem field?_of_encode_tagOf {value : Value} {wire : Json}
    (h : builtin.encode value (tagOf wire) = .ok wire) : wire.field? "Z1K1" = some (tagOf wire) := by
  cases hfield : wire.field? "Z1K1" with
  | some type => rw [tagOf, hfield, Option.getD_some]
  | none =>
    have hnull : Wire.typeId .null = .error (.unknownType (Json.null).render) := by
      rw [Wire.typeId] <;> rintro _ ⟨⟩
    rw [tagOf, hfield, Option.getD_none, encode_eq, step, hnull] at h
    cases h

/-! ### Both ways of encoding -/

/-- A value that is encoded by its shape is encoded to the very same wire value for the type found
there. -/
theorem encode_field?_of_encodeAny {value : Value} {wire : Json}
    (h : Annotated IsPairType value) (hwire : builtin.encodeAny value = .ok wire) :
    ∃ type, wire.field? "Z1K1" = some type ∧ builtin.encode value type = .ok wire := by
  have hl : value.EveryDeclared Json.Legible :=
    h.everyDeclared (fun _ ht => ht.2.1.legible ht.2.2) Json.compositional_legible.reference
  have hform := h.explicit.encode_tagOf hl wire hwire
  have htag : builtin.encode value (tagOf wire) = .ok wire := by
    cases h with
    | record _ hk hno => exact (encodeAny_record hk hno hwire).2
    | _ => rwa [encode_referenceForm (by rintro _ _ ⟨⟩)] at hform
  exact ⟨_, field?_of_encode_tagOf htag, htag⟩

/-- Pairs that share a type, which just one of them declares, next to a map with a record. -/
def sharedPairs : Value :=
  .pair
    (.list [.pair (.text "a") (.list []) none,
      .pair (.text "b") (.list [])
        (some (Wire.pairOf (.str "Z6") (Wire.listOf (Wire.reference "Z1"))))])
    (.map [(.text "k", .record (some (Wire.reference "Z2000")) [("Z2000K1", .flag true)])])
    none

/-- Their list is encoded to the same for the type that they share. -/
theorem encode_field?_of_encodeAny_sharedPairs : ∃ wire,
    builtin.encodeAny sharedPairs = .ok wire ∧
      wire.field? "Z1K1" = some (Wire.pairOf
        (Wire.listOf (Wire.pairOf (.str "Z6") (Wire.listOf (Wire.reference "Z1"))))
        (Wire.mapOf (.str "Z6") (Wire.reference "Z2000"))) ∧
      ∃ type, wire.field? "Z1K1" = some type ∧ builtin.encode sharedPairs type = .ok wire := by
  have hannotated : Annotated IsPairType sharedPairs := by
    refine .pair (by rintro _ ⟨⟩) (.list ?_) (.map ?_ ?_)
    · simp only [List.forall_mem_cons, List.not_mem_nil, false_implies, implies_true, and_true]
      refine ⟨.pair (by rintro _ ⟨⟩) (.text "a") (.list (by simp)),
        .pair ?_ (.text "b") (.list (by simp))⟩
      rintro _ ⟨⟩
      have hnumbers : (Wire.pairOf (.str "Z6") (Wire.listOf (Wire.reference "Z1"))).numbers = [] := by
        decide +kernel
      exact ⟨Wire.typeId_pairOf .., by decide +kernel, by simp [hnumbers]⟩
    · simpa using .text "k"
    · simpa using .record rfl (List.pairwise_singleton ..) (by decide) (by simpa using .flag true)
  have hwithin : ∃ wire, encodeWithin builtin 6 sharedPairs (Wire.reference TypeId.any) = .ok wire ∧
      wire.field? "Z1K1" = some (Wire.pairOf
        (Wire.listOf (Wire.pairOf (.str "Z6") (Wire.listOf (Wire.reference "Z1"))))
        (Wire.mapOf (.str "Z6") (Wire.reference "Z2000"))) := by
    refine ⟨_, by cbv, by cbv⟩
  obtain ⟨wire, hwire, hfield⟩ := hwithin
  have hany := encode_of_encodeWithin hwire (by rintro ⟨⟩)
  exact ⟨wire, hany, hfield, encode_field?_of_encodeAny hannotated hany⟩

end Polyglot.Codec
