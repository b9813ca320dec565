import Polyglot.Proofs.Codec.Found

/-!
# Encoding by shape, again

What a regular value is encoded to by its shape is decoded, and encoding the decoded value by its shape
gives the very same wire value exactly when the value is intact (`encodeAny_decoded_iff`): no reference
in it names a truth value, void or nothing, which have values of their own, and no two keys of a map come
back as equal ones.

The second time a pair without slot types has some: the types found in its slots.  So its slots are
encoded for these types and no longer by their shapes.  What is found in a value can be asked for, with
the same result (`Explicit.encode_tagOf`).
-/

namespace Polyglot.Codec

/-! ### Types found in regular values -/

theorem Regular.explicit {paired : Bool} {value : Value} (h : Regular paired value)
    (hpaired : paired = true) : Explicit value := by
  induction h with
  | text paired s => exact .text s
  | reference paired id => exact .reference id
  | flag paired b => exact .flag b
  | unit paired => exact .unit
  | list _ ih => exact .list fun v hv => ih v hv hpaired
  | map _ _ ihk ihv => exact .map (fun e he => ihk e he hpaired) fun e he => ihv e he hpaired
  | typed htype hslots => exact .typed htype hslots
  | pair hslots _ _ _ _ ih1 ih2 => exact .pair hslots (ih1 rfl) (ih2 rfl)
  | record _ hbare hk hno => exact .record (hbare hpaired) hk hno

theorem keysOnce_sharedType {tags : List Json}
    (h : ∀ tag ∈ tags, KeysOnce (Wire.referenceForm tag)) :
    KeysOnce (Wire.referenceForm (sharedType tags)) := by
  unfold sharedType
  split
  · exact keysOnce_reference _
  · split_ifs
    · exact (h _ List.mem_cons_self).referenceForm
    · exact keysOnce_reference _

/-- The type found in a value in a pair leads to types that declare their keys once. -/
theorem Regular.keysOnce_tagOf {paired : Bool} {value : Value} (h : Regular paired value)
    (hpaired : paired = true) :
    ∀ wire, builtin.encodeAny value = .ok wire → KeysOnce (Wire.referenceForm (tagOf wire)) := by
  induction h with
  | text | reference | flag | unit =>
    intro wire hwire
    obtain rfl := Except.ok.inj ((encodeAny_eq _).symm.trans hwire)
    exact keysOnce_reference _
  | list _ ih =>
    intro wire hwire
    obtain ⟨wires, hwires, rfl⟩ := exists_of_items (step_any _) hwire
    rw [inferredList, tagOf_listWith]
    refine (keysOnce_listOf (keysOnce_sharedType (List.forall_mem_map.mpr fun w hw => ?_)))
    obtain ⟨v, hzip⟩ := Traversal.exists_mem_zip_of_mem_right hwires hw
    exact ih v (List.of_mem_zip hzip).1 hpaired w (List.forall₂_zip hwires hzip)
  | map _ _ ihk ihv =>
    intro wire hwire
    obtain ⟨wires, hwires, rfl⟩ := exists_of_entries (step_any _) hwire
    refine keysOnce_mapOf (keysOnce_sharedType (List.forall_mem_map.mpr fun w hw => ?_))
      (keysOnce_sharedType (List.forall_mem_map.mpr fun w hw => ?_))
    all_goals
      obtain ⟨e, hzip⟩ := Traversal.exists_mem_zip_of_mem_right hwires hw
      obtain ⟨hk, hv⟩ := List.forall₂_zip hwires hzip
    · exact ihk e (List.of_mem_zip hzip).1 hpaired w.1 hk
    · exact ihv e (List.of_mem_zip hzip).1 hpaired w.2 hv
  | typed htype hslots honce =>
    intro wire hwire
    obtain ⟨w1, w2, -, -, rfl⟩ := exists_of_slots (step_any_typed hslots ..) hwire
    exact honce.referenceForm
  | pair hslots _ _ _ _ ih1 ih2 =>
    intro wire hwire
    obtain ⟨w1, w2, hw1, hw2, rfl⟩ := exists_of_slots (step_any_untyped hslots ..) hwire
    exact keysOnce_pairOf (ih1 rfl w1 hw1) (ih2 rfl w2 hw2)
  | record honce _ hk hno =>
    intro wire hwire
    exact (honce _ (encodeAny_record hk hno hwire).1).referenceForm

/-! ### Values that settle -/

/-- What is written as a reference comes back unless it names a sentinel. -/
theorem settles_reference {value : Value} {type : Json} {id : String}
    (htype : Wire.typeId type = .ok TypeId.any ∨ Wire.typeId type = .ok TypeId.reference)
    (hreference : (Value.reference id).echoes value = true)
    (hflag : ∀ b, (Value.flag b).echoes value = false) (hunit : Value.unit.echoes value = false)
    (hintact : Intact value type ↔ id ∉ sentinels) :
    Settles value type type (Wire.reference id) := by
  refine ⟨valueOfId id, decode_reference id, ?_⟩
  by_cases hid : id ∈ sentinels
  · have hlost : (valueOfId id).echoes value = false := by
      rcases valueOfId_of_mem hid with h | ⟨b, h⟩
      · rw [h, hunit]
      · rw [h, hflag]
    have hother : builtin.encode (valueOfId id) type ≠ .ok (Wire.reference id) := by
      rcases htype with htype | htype
      · rw [encode_eq, step_of_rule .inferred htype rfl]
        rcases valueOfId_of_mem hid with h | ⟨b, h⟩ <;> rw [h] <;> rintro ⟨⟩
      · rw [encode_eq, step_of_rule .reference htype rfl]
        rcases valueOfId_of_mem hid with h | ⟨b, h⟩ <;> rw [h] <;> rintro ⟨⟩
    rw [hintact, hlost]
    exact ⟨iff_of_false hother Bool.false_ne_true, iff_of_false Bool.false_ne_true fun h => h hid⟩
  · rw [valueOfId_of_not_mem hid, hintact]
    refine ⟨iff_of_true ?_ hreference, iff_of_true hreference hid⟩
    rcases htype with htype | htype
    · rw [encode_eq, step_of_rule .inferred htype rfl]
      rfl
    · rw [encode_eq, step_of_rule .reference htype rfl]
      rfl

/-- A pair that is asked for as a pair settles if its slots do. -/
theorem settles_pair_of_typeId {first second : Value} {declared : Option Json} {type wire : Json}
    (htype : Wire.typeId type = .ok TypeId.pair) (honce : KeysOnce type)
    (h1 : ∀ t w, KeysOnce t → builtin.encode first t = .ok w → Settles first t t w)
    (h2 : ∀ t w, KeysOnce t → builtin.encode second t = .ok w → Settles second t t w)
    (h : builtin.encode (.pair first second declared) type = .ok wire) :
    Settles (.pair first second declared) type type wire := by
  have hstep : ∀ a b d, builtin.step (.pair a b d) type = slotStep a b type :=
    fun a b d => step_of_rule .pair htype rfl (.pair a b d)
  cases hslots : slotTypes? type with
  | some types =>
    have hslot : ∀ a b d, builtin.step (.pair a b d) type =
        .slots a b types.1 types.2 (pairWire type) := fun a b d =>
      (hstep a b d).trans (slotStep_of_some hslots a b)
    obtain ⟨w1, w2, hw1, hw2, rfl⟩ := exists_of_slots (hslot ..) h
    obtain ⟨honce1, honce2⟩ := honce.slots hslots
    exact settles_pair (fun _ _ => type) htype (hslot ..) (fun a b => hslot a b _)
      (h1 _ _ honce1 hw1) (h2 _ _ honce2 hw2)
  | none =>
    have hslot : ∀ a b d, builtin.step (.pair a b d) type =
        .slots a b (Wire.reference TypeId.any) (Wire.reference TypeId.any) inferredPair :=
      fun a b d => (hstep a b d).trans (slotStep_of_none hslots a b)
    obtain ⟨w1, w2, hw1, hw2, rfl⟩ := exists_of_slots (hslot ..) h
    have hany := keysOnce_reference TypeId.any
    exact settles_pair (fun x y => Wire.pairOf (tagOf x) (tagOf y))
      (Wire.typeId_pairOf ..) (hslot ..) (fun a b => hslot a b _)
      (h1 _ _ hany hw1) (h2 _ _ hany hw2)

/-- A pair is encoded by its shape or asked for as a pair. -/
theorem encode_pair_cases {first second : Value} {declared : Option Json} {type wire : Json}
    (h : builtin.encode (.pair first second declared) type = .ok wire) :
    Wire.typeId type = .ok TypeId.any ∨ Wire.typeId type = .ok TypeId.pair := by
  obtain ⟨id, rule, hid, hrule, h⟩ := exists_rule (by rintro _ _ ⟨⟩) h
  have hrule := id_of_rule hrule
  cases rule with
  | inferred => exact .inl (hid.trans (congrArg Except.ok hrule))
  | pair => exact .inr (hid.trans (congrArg Except.ok hrule))
  | always | refuse | within => exact hrule.elim
  | _ => cases h

/-- A pair that is encoded by its shape settles if its slots do, for the types that it names. -/
theorem settles_pair_typed {first second : Value} {declared type wire : Json}
    {types : Json × Json} (hany : Wire.typeId type = .ok TypeId.any)
    (htype : Wire.typeId declared = .ok TypeId.pair) (hslots : slotTypes? declared = some types)
    (h1 : ∀ w, builtin.encode first types.1 = .ok w → Settles first types.1 types.1 w)
    (h2 : ∀ w, builtin.encode second types.2 = .ok w → Settles second types.2 types.2 w)
    (h : builtin.encode (.pair first second (some declared)) type = .ok wire) :
    Settles (.pair first second (some declared)) type type wire := by
  have hslot : ∀ a b, builtin.step (.pair a b (some declared)) type =
      .slots a b types.1 types.2 (pairWire declared) := fun a b =>
    (step_of_rule .inferred hany rfl _).trans (slotStep_of_some hslots a b)
  obtain ⟨w1, w2, hw1, hw2, rfl⟩ := exists_of_slots (hslot ..) h
  exact settles_pair (fun _ _ => declared) htype (hslot ..) hslot (h1 _ hw1) (h2 _ hw2)

/-- A pair without slot types that is encoded by its shape settles if its slots do, for the types
that are found in them: the second time the slots are encoded for these. -/
theorem settles_pair_untyped {first second : Value} {declared : Option Json} {type wire : Json}
    (hany : Wire.typeId type = .ok TypeId.any) (hslots : slotTypes? (declared.getD .null) = none)
    (h1 : ∀ w, builtin.encodeAny first = .ok w →
      Settles first (Wire.reference TypeId.any) (Wire.referenceForm (tagOf w)) w)
    (h2 : ∀ w, builtin.encodeAny second = .ok w →
      Settles second (Wire.reference TypeId.any) (Wire.referenceForm (tagOf w)) w)
    (h : builtin.encode (.pair first second declared) type = .ok wire) :
    Settles (.pair first second declared) type type wire := by
  have hslot : builtin.step (.pair first second declared) type = .slots first second
      (Wire.reference TypeId.any) (Wire.reference TypeId.any) inferredPair :=
    (step_of_rule .inferred hany rfl _).trans (slotStep_of_none hslots first second)
  obtain ⟨w1, w2, hw1, hw2, rfl⟩ := exists_of_slots hslot h
  have hagain : ∀ a b, builtin.step (.pair a b (some (Wire.pairOf (tagOf w1) (tagOf w2)))) type =
      .slots a b (Wire.referenceForm (tagOf w1)) (Wire.referenceForm (tagOf w2))
        (pairWire (Wire.pairOf (tagOf w1) (tagOf w2))) := fun a b =>
    (step_of_rule .inferred hany rfl _).trans (slotStep_of_some (slotTypes?_pairOf ..) a b)
  exact settles_pair (fun _ _ => Wire.pairOf (tagOf w1) (tagOf w2))
    (Wire.typeId_pairOf ..) hslot hagain (h1 _ hw1) (h2 _ hw2)

theorem settles_text {s : String} {type wire : Json}
    (h : builtin.encode (.text s) type = .ok wire) : Settles (.text s) type type wire := by
  obtain ⟨id, rule, hid, hrule, hstep⟩ := exists_rule (by rintro _ _ ⟨⟩) h
  have hself : id ≠ TypeId.reference → builtin.decode wire = .ok (.text s) →
      Settles (.text s) type type wire := fun hne hdecode =>
    settles_self h hdecode (by simp [Value.echoes]) (intact_text_iff.mpr fun hreference =>
      absurd (Except.ok.inj (hid.symm.trans hreference)) hne)
  have hrule := id_of_rule hrule
  cases rule with
  | inferred | text =>
    obtain rfl := Except.ok.inj hstep
    exact hself (by rw [hrule]; decide) (decode_text s)
  | codePoint =>
    rw [ruleStep] at hstep
    split_ifs at hstep
    · obtain rfl := Except.ok.inj hstep
      exact hself (by rw [hrule]; decide) (decode_codePointWire s)
    · cases hstep
  | reference =>
    rw [ruleStep] at hstep
    split_ifs at hstep
    · obtain rfl := Except.ok.inj hstep
      have htype := hid.trans (congrArg Except.ok hrule)
      exact settles_reference (.inr htype) (by simp [Value.echoes]) (fun b => by simp [Value.echoes])
        (by simp [Value.echoes]) (intact_text_iff.trans (forall_prop_of_true htype))
    · cases hstep
  | always | refuse | within => exact hrule.elim
  | _ => cases hstep

theorem settles_referenceValue {id : String} {type wire : Json}
    (h : builtin.encode (.reference id) type = .ok wire) :
    Settles (.reference id) type type wire := by
  obtain ⟨denoted, rule, hid, hrule, hstep⟩ := exists_rule (by rintro _ _ ⟨⟩) h
  have hrule := id_of_rule hrule
  have hself : ∀ htype, Settles (.reference id) type type (Wire.reference id) := fun htype =>
    settles_reference htype (by simp [Value.echoes]) (fun b => by simp [Value.echoes])
      (by simp [Value.echoes]) intact_reference_iff
  cases rule with
  | inferred =>
    obtain rfl := Except.ok.inj hstep
    exact hself (.inl (hid.trans (congrArg Except.ok hrule)))
  | reference =>
    obtain rfl := Except.ok.inj hstep
    exact hself (.inr (hid.trans (congrArg Except.ok hrule)))
  | always | refuse | within => exact hrule.elim
  | _ => cases hstep

theorem settles_flag {b : Bool} {type wire : Json}
    (h : builtin.encode (.flag b) type = .ok wire) : Settles (.flag b) type type wire := by
  obtain ⟨id, rule, hid, hrule, hstep⟩ := exists_rule (by rintro _ _ ⟨⟩) h
  have hrule := id_of_rule hrule
  cases rule with
  | inferred | boolean =>
    obtain rfl := Except.ok.inj hstep
    exact settles_self h (decode_booleanWire b) (by simp [Value.echoes]) (.flag b type)
  | always | refuse | within => exact hrule.elim
  | _ => cases hstep

theorem settles_unit {type wire : Json} (h : builtin.encode .unit type = .ok wire) :
    Settles .unit type type wire := by
  obtain ⟨id, rule, hid, hrule, hstep⟩ := exists_rule (by rintro _ _ ⟨⟩) h
  have hrule := id_of_rule hrule
  cases rule with
  | inferred | unit =>
    obtain rfl := Except.ok.inj hstep
    exact settles_self h decode_unitWire (by simp [Value.echoes]) (.unit type)
  | sentinel target =>
    obtain rfl := Except.ok.inj hstep
    refine settles_self h ?_ (by simp [Value.echoes]) (.unit type)
    rw [decode_reference]
    rcases hrule.2 with rfl | rfl <;> rfl
  | always | refuse | within => exact hrule.elim
  | _ => cases hstep

/-- Whatever a regular value is encoded for, it settles. -/
theorem Regular.settles {paired : Bool} {value : Value} (h : Regular paired value) :
    ∀ type wire, KeysOnce type → builtin.encode value type = .ok wire →
      Settles value type type wire := by
  induction h with
  | text => exact fun _ _ _ hwire => settles_text hwire
  | reference => exact fun _ _ _ hwire => settles_referenceValue hwire
  | flag => exact fun _ _ _ hwire => settles_flag hwire
  | unit => exact fun _ _ _ hwire => settles_unit hwire
  | list _ ih =>
    intro type wire honce hwire
    obtain ⟨item, build, hrule⟩ := exists_listRule hwire
    obtain ⟨wires, hwires, rfl⟩ := exists_of_items (hrule.step _) hwire
    refine settles_list hrule (List.forall₂_iff_zip.mpr ⟨hwires.length_eq, fun {v w} hzip => ?_⟩)
    exact ih v (List.of_mem_zip hzip).1 item w (hrule.once honce) (List.forall₂_zip hwires hzip)
  | map _ _ ihk ihv =>
    intro type wire honce hwire
    obtain ⟨keyType, valueType, tag, pairTag, hrule⟩ := exists_mapRule hwire
    obtain ⟨honcek, honcev⟩ := hrule.once honce
    obtain ⟨wires, hwires, rfl⟩ := exists_of_entries (hrule.step _) hwire
    refine settles_map hrule (List.forall₂_iff_zip.mpr ⟨hwires.length_eq, fun {e w} hzip => ?_⟩)
    obtain ⟨hk, hv⟩ := List.forall₂_zip hwires hzip
    have he := (List.of_mem_zip hzip).1
    exact ⟨hk, ihk e he _ _ honcek hk, ihv e he _ _ honcev hv⟩
  | typed htype hslots honce' _ _ ih1 ih2 =>
    intro type wire honce hwire
    obtain ⟨honce1, honce2⟩ := honce'.slots hslots
    rcases encode_pair_cases hwire with hany | hpair
    · exact settles_pair_typed hany htype hslots (fun w => ih1 _ w honce1)
        (fun w => ih2 _ w honce2) hwire
    · exact settles_pair_of_typeId hpair honce ih1 ih2 hwire
  | pair hslots h1 h2 hl1 hl2 ih1 ih2 =>
    intro type wire honce hwire
    rcases encode_pair_cases hwire with hany | hpair
    · have hany := keysOnce_reference TypeId.any
      refine settles_pair_untyped ‹_› hslots (fun w hw => ?_) (fun w hw => ?_) hwire
      · exact (ih1 _ w hany hw).congr
          (ih1 _ w (h1.keysOnce_tagOf rfl w hw) ((h1.explicit rfl).encode_tagOf hl1 w hw))
      · exact (ih2 _ w hany hw).congr
          (ih2 _ w (h2.keysOnce_tagOf rfl w hw) ((h2.explicit rfl).encode_tagOf hl2 w hw))
    · exact settles_pair_of_typeId hpair honce ih1 ih2 hwire
  | record honce' _ hk hno _ ih =>
    intro type wire honce hwire
    rcases encode_record_cases hwire with ⟨id, hid, hnone⟩ |
      ⟨hany, other, id, rfl, hform, hid, hnone, hother⟩
    · obtain ⟨vs, hdecode, hiff, hintact⟩ := settles_record hid hnone honce hk hno ih hwire
      refine ⟨_, hdecode, ?_⟩
      rw [Value.echoes]
      exact ⟨hiff, hintact⟩
    · -- The record that comes back declares the type that it was encoded for.
      obtain ⟨vs, hdecode, hiff, hintact⟩ :=
        settles_record hid hnone (honce' other rfl) hk hno ih hother
      refine ⟨_, hdecode, ?_⟩
      rw [encode_of_handOn hany hform, Value.echoes, intact_handedOn_iff
        (step_builtin_eq_handOn_iff.mpr ⟨hany, _, rfl, hform, rfl⟩)]
      exact ⟨hiff, hintact⟩

/-! ### Encoding by shape -/

/-- What a regular value is encoded to by its shape is decoded, and encoding the decoded value by its
shape gives the very same wire value exactly when the value is intact, and so has come back; every
portable value is. -/
theorem encodeAny_decoded_iff :
    (∀ (value : Value) (wire : Json), Regular false value → builtin.encodeAny value = .ok wire →
      ∃ decoded, builtin.decode wire = .ok decoded ∧
        (builtin.encodeAny decoded = .ok wire ↔ Intact value (Wire.reference TypeId.any)) ∧
        (decoded.echoes value = true ↔ Intact value (Wire.reference TypeId.any))) ∧
      ∀ (value : Value) (wire : Json), Regular false value → Portable value →
        builtin.encodeAny value = .ok wire → ∃ decoded, builtin.decode wire = .ok decoded ∧
          decoded.same value = true ∧ builtin.encodeAny decoded = .ok wire := by
  have hsettles : ∀ (value : Value) (wire : Json), Regular false value →
      builtin.encodeAny value = .ok wire →
        Settles value (Wire.reference TypeId.any) (Wire.reference TypeId.any) wire :=
    fun value wire hvalue hwire => hvalue.settles _ wire (keysOnce_reference _) hwire
  constructor
  · intro value wire hvalue hwire
    obtain ⟨decoded, hdecode, hiff, hintact⟩ := hsettles value wire hvalue hwire
    exact ⟨decoded, hdecode, hiff.trans hintact, hintact⟩
  · intro value wire hvalue hportable hwire
    obtain ⟨decoded, hdecode, hiff, -⟩ := hsettles value wire hvalue hwire
    obtain ⟨decoded', hdecode', hsame⟩ := hportable.decodesTo Wire.built_any hwire
    obtain rfl := Except.ok.inj (hdecode.symm.trans hdecode')
    exact ⟨decoded, hdecode, hsame, hiff.mpr (hvalue.echoes_of_same decoded hsame)⟩

/-- A pair without slot types. -/
def listAndRecord : Value :=
  .pair (.list [.text "a"]) (.record (some (Wire.reference "Z2000")) [("Z2000K1", .flag true)]) none

/-- It comes back as a pair with slot types, and is encoded to the same. -/
theorem encodeAny_decoded_iff_listAndRecord : ∃ wire decoded,
    builtin.encodeAny listAndRecord = .ok wire ∧ builtin.decode wire = .ok decoded ∧
      builtin.encodeAny decoded = .ok wire ∧ Intact listAndRecord (Wire.reference TypeId.any) := by
  have hregular : Regular false listAndRecord := by
    refine .pair (by decide +kernel) (.list (by simpa using .text true "a")) ?_ ?_ ?_
    · refine .record ?_ (by rintro - _ ⟨⟩) (List.pairwise_singleton ..) (by decide)
        (by simpa using .flag false true)
      rintro _ ⟨⟩
      exact keysOnce_reference "Z2000"
    · exact .list (by simpa using .text "a")
    · refine .record ?_ (by simpa using .flag true)
      rintro _ ⟨⟩
      exact Json.compositional_legible.reference "Z2000"
  have hportable : Portable listAndRecord := by
    refine .pair (.list (by simpa using .text "a")) ?_ (by rintro _ ⟨⟩)
    exact .record rfl (by decide) (by decide) (List.pairwise_singleton ..) (by decide)
      (by simpa using .flag true)
  have hwithin : encodeWithin builtin 4 listAndRecord (Wire.reference TypeId.any) =
      .ok (pairWire (Wire.pairOf (Wire.listOf (.str "Z6")) (.str "Z2000"))
        (Wire.listWith (Wire.listOf (.str "Z6")) [Wire.text "a"])
        (.obj [("Z1K1", Wire.reference "Z2000"), ("Z2000K1", booleanWire true)])) := by
    cbv
  have hencode := encode_of_encodeWithin hwithin (by rintro ⟨⟩)
  obtain ⟨decoded, hdecode, -, hagain⟩ :=
    encodeAny_decoded_iff.2 listAndRecord _ hregular hportable hencode
  obtain ⟨decoded', hdecode', hiff, -⟩ := encodeAny_decoded_iff.1 listAndRecord _ hregular hencode
  obtain rfl := Except.ok.inj (hdecode.symm.trans hdecode')
  exact ⟨_, decoded, hencode, hdecode, hagain, hiff.mp hagain⟩

/-- A pair whose first slot is a record with a bare type. -/
def bareInPair : Value := .pair (.record (some (.str "Z2000")) []) .unit none

/-- A record whose type declares a key first for a text and then for a reference. -/
def declaredTwice : Value :=
  .record (some (Wire.descriptor (.str "Z2000")
    [Wire.declareKey (.str "Z6") "a", Wire.declareKey (.str "Z9") "a"])) [("a", .text "Z2000")]

/-- A pair with slot types in a type that denotes nothing. -/
def aimlessPair : Value :=
  .pair .unit .unit (some (.obj [("Z1K1", .str "Z7"), ("Z882K1", .str "Z21"),
    ("Z882K2", .str "Z21")]))

/-- A record with a field where the type is written. -/
def hiddenTag : Value := .record (some (Wire.reference "Z2000")) [("Z1K1", .unit)]

/-- The type of pairs of a map from one type to texts and of nothing. -/
def mapAndUnit : Json := Wire.pairOf (Wire.mapOf (.str "Z2000") (.str "Z6")) (.str "Z21")

/-- What such a pair is written as. -/
def mapAndUnitWire (entries : List (Json × Json)) : Json :=
  pairWire mapAndUnit (mapWire (Wire.mapOf (.str "Z2000") (.str "Z6"))
    (Wire.pairOf (.str "Z2000") (.str "Z6")) entries) unitWire

theorem decode_mapAndUnitWire {wires : List (Json × Json)} {es : Value.Entries}
    (h : List.Forall₂ (fun w e => builtin.decode w.1 = .ok e.1 ∧ builtin.decode w.2 = .ok e.2)
      wires es) : builtin.decode (mapAndUnitWire wires) =
        .ok (.pair (.map (Value.Entries.ofList es)) .unit (some mapAndUnit)) := by
  have htype : Wire.typeId mapAndUnit = .ok TypeId.pair := Wire.typeId_pairOf ..
  rw [mapAndUnitWire, decode_pairWire htype,
    decode_mapWire_ofList (Wire.typeId_mapOf ..) (Wire.typeId_pairOf ..) h, decode_unitWire]
  rfl

/-- A record without fields. -/
def emptyRecord (id : String) : Value := .record (some (Wire.reference id)) []

/-- A map whose keys are two records with different types, where records of one type are asked for. -/
def keysOfOneType : Value :=
  .pair (.map [(emptyRecord "Z2000", .text "a"), (emptyRecord "Z3000", .text "b")]) .unit
    (some mapAndUnit)

/-- Neither a reference to a truth value nor a map whose keys become equal, a pair with a bare record or
a record with a key declared twice is encoded to the same again; a pair with an aimless type and a record
that hides its tag are not even decoded. -/
theorem encodeAny_decoded_otherwise :
    (∀ value ∈ [.reference "Z41", keysOfOneType, bareInPair, declaredTwice], ∃ wire decoded,
      builtin.encodeAny value = .ok wire ∧ builtin.decode wire = .ok decoded ∧
        builtin.encodeAny decoded ≠ .ok wire) ∧
      ∀ value ∈ [aimlessPair, hiddenTag], ∃ wire, builtin.encodeAny value = .ok wire ∧
        ∀ decoded, builtin.decode wire ≠ .ok decoded := by
  have hencode : ∀ {value : Value} {result : Except EncodeFailure Json},
      encodeWithin builtin 6 value (Wire.reference TypeId.any) = result →
      result ≠ .error .endless → builtin.encodeAny value = result :=
    fun h hresult => encode_of_encodeWithin h hresult
  have hdecode : ∀ {wire : Json}, (∃ e, builtin.decode wire = .error e) →
      ∀ decoded, builtin.decode wire ≠ .ok decoded := by
    rintro wire ⟨e, he⟩ decoded h
    rw [he] at h
    cases h
  simp only [List.forall_mem_cons, List.not_mem_nil, false_implies, implies_true, and_true]
  refine ⟨⟨?reference, ?keys, ?bare, ?twice⟩, ?aimless, ?hidden⟩
  case reference =>
    refine ⟨Wire.reference "Z41", .flag true, encodeAny_eq _, decode_reference _, ?_⟩
    rw [encodeAny_eq]
    rintro ⟨⟩
  case keys =>
    let key : Json := .obj [("Z1K1", Wire.reference "Z2000")]
    have hkey : builtin.decode key = .ok (emptyRecord "Z2000") := by cbv
    have hentries : List.Forall₂ (fun w e => builtin.decode w.1 = .ok e.1 ∧
        builtin.decode w.2 = .ok e.2) [(key, Wire.text "a"), (key, Wire.text "b")]
          [(emptyRecord "Z2000", .text "a"), (emptyRecord "Z2000", .text "b")] :=
      .cons ⟨hkey, decode_text "a"⟩ (.cons ⟨hkey, decode_text "b"⟩ .nil)
    refine ⟨_, _, hencode ?_ (by rintro ⟨⟩), decode_mapAndUnitWire hentries, ?_⟩
    · cbv
    -- Of the two entries one has come back.
    have hkept : Value.Entries.ofList
        [(emptyRecord "Z2000", .text "a"), (emptyRecord "Z2000", .text "b")] =
          [(emptyRecord "Z2000", .text "b")] := by cbv
    have hagain : encodeWithin builtin 6 (.pair (.map [(emptyRecord "Z2000", .text "b")]) .unit
        (some mapAndUnit)) (Wire.reference TypeId.any) =
          .ok (mapAndUnitWire [(key, Wire.text "b")]) := by cbv
    rw [hkept, hencode hagain (by rintro ⟨⟩)]
    intro h
    exact absurd (congrArg List.length (mapWire_inj (pairWire_inj (Except.ok.inj h)).1)) (by decide)
  case bare =>
    refine ⟨pairWire (Wire.pairOf (.str "Z2000") (Wire.reference "Z21"))
        (.obj [("Z1K1", .str "Z2000")]) unitWire,
      .pair (.record (some (.str "Z2000")) []) .unit
        (some (Wire.pairOf (.str "Z2000") (Wire.reference "Z21"))), ?_, ?_, ?_⟩
    · exact hencode (by cbv) (by rintro ⟨⟩)
    · cbv
    · -- The type found in the first slot has become a reference.
      have hagain : encodeWithin builtin 6 (.pair (.record (some (.str "Z2000")) []) .unit
          (some (Wire.pairOf (.str "Z2000") (Wire.reference "Z21")))) (Wire.reference TypeId.any) =
            .ok (pairWire (Wire.pairOf (.str "Z2000") (Wire.reference "Z21"))
              (.obj [("Z1K1", Wire.reference "Z2000")]) unitWire) := by cbv
      rw [hencode hagain (by rintro ⟨⟩)]
      rintro ⟨⟩
  case twice =>
    refine ⟨.obj [("Z1K1", Wire.descriptor (.str "Z2000")
        [Wire.declareKey (.str "Z6") "a", Wire.declareKey (.str "Z9") "a"]),
        ("a", Wire.reference "Z2000")],
      .record (some (Wire.descriptor (.str "Z2000")
        [Wire.declareKey (.str "Z6") "a", Wire.declareKey (.str "Z9") "a"]))
        [("a", .reference "Z2000")], ?_, ?_, ?_⟩
    · exact hencode (by cbv) (by rintro ⟨⟩)
    · cbv
    · -- The field comes back as a reference, which is no text.
      have hagain : ∃ e, encodeWithin builtin 6 (.record (some (Wire.descriptor (.str "Z2000")
          [Wire.declareKey (.str "Z6") "a", Wire.declareKey (.str "Z9") "a"]))
          [("a", .reference "Z2000")]) (Wire.reference TypeId.any) = .error (.error e) :=
        ⟨.encode _, by cbv⟩
      obtain ⟨e, he⟩ := hagain
      rw [hencode he (by rintro ⟨⟩)]
      rintro ⟨⟩
  case aimless =>
    exact ⟨pairWire (.obj [("Z1K1", .str "Z7"), ("Z882K1", .str "Z21"), ("Z882K2", .str "Z21")])
      unitWire unitWire, hencode (by cbv) (by rintro ⟨⟩), hdecode ⟨_, by cbv⟩⟩
  case hidden =>
    exact ⟨.obj [("Z1K1", unitWire)], hencode (by cbv) (by rintro ⟨⟩), hdecode ⟨_, by cbv⟩⟩

end Polyglot.Codec
