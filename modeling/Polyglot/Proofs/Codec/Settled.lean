import Polyglot.Proofs.Codec.Intact

/-!
# Encoding what was decoded

`Settles` says of a wire value that it is decoded, and that encoding the decoded value for a type gives
the very same wire value exactly when the value that was encoded first has come back
(`Value.echoes`), which it has exactly when it is intact (`Intact`).  A list, a pair, a map or a record
settles if its parts do (`settles_list`, `settles_pair`, `settles_map`, `settles_record`), whatever rule
it is encoded by: the rule for the decoded value asks for the same types of its parts and puts them
together in the same way.
-/

namespace Polyglot.Codec

/-- Whether the wire value that a value is encoded to for a type is decoded, and encoding for another
type gives it again exactly when the value came back, and that is when it is intact. -/
def Settles (value : Value) (type again wire : Json) : Prop :=
  ∃ decoded, builtin.decode wire = .ok decoded ∧
    (builtin.encode decoded again = .ok wire ↔ decoded.echoes value = true) ∧
    (decoded.echoes value = true ↔ Intact value type)

/-- A value that is decoded to itself settles. -/
theorem settles_self {value : Value} {type wire : Json} (h : builtin.encode value type = .ok wire)
    (hdecode : builtin.decode wire = .ok value) (hecho : value.echoes value = true)
    (hintact : Intact value type) : Settles value type type wire :=
  ⟨value, hdecode, iff_of_true h hecho, iff_of_true hecho hintact⟩

/-- What settles for one type the second time settles for another that gives the same wire value. -/
theorem Settles.congr {value : Value} {type other again wire : Json}
    (h : Settles value type type wire) (hagain : Settles value other again wire) :
    Settles value type again wire := by
  obtain ⟨decoded, hdecode, -, hintact⟩ := h
  obtain ⟨decoded', hdecode', hiff, -⟩ := hagain
  obtain rfl := Except.ok.inj (hdecode.symm.trans hdecode')
  exact ⟨decoded, hdecode, hiff, hintact⟩

/-! ### Steps -/

theorem encode_of_items {value : Value} {type item : Json} {values : List Value}
    {build : List Json → Json} (h : builtin.step value type = .items values item build) :
    builtin.encode value type =
      (do pure (build (← values.mapM fun v => builtin.encode v item))) := by
  rw [encode_eq, h]
  rfl

theorem encode_of_slots {value first second : Value} {type t1 t2 : Json}
    {build : Json → Json → Json} (h : builtin.step value type = .slots first second t1 t2 build) :
    builtin.encode value type = (do
      let w1 ← builtin.encode first t1
      let w2 ← builtin.encode second t2
      pure (build w1 w2)) := by
  rw [encode_eq, h]
  rfl

theorem encode_of_entries {value : Value} {es : Value.Entries} {type keyType valueType : Json}
    {build : List (Json × Json) → Json}
    (h : builtin.step value type = .entries es keyType valueType build) :
    builtin.encode value type = (do
      pure (build (← es.mapM fun e => do
        let k ← builtin.encode e.1 keyType
        let v ← builtin.encode e.2 valueType
        pure (k, v)))) := by
  rw [encode_eq, h]
  rfl

/-- A pair is encoded if both slots are. -/
theorem exists_of_slots {value first second : Value} {type t1 t2 wire : Json}
    {build : Json → Json → Json} (hstep : builtin.step value type = .slots first second t1 t2 build)
    (h : builtin.encode value type = .ok wire) :
    ∃ w1 w2, builtin.encode first t1 = .ok w1 ∧ builtin.encode second t2 = .ok w2 ∧
      wire = build w1 w2 := by
  rw [encode_of_slots hstep] at h
  obtain ⟨w1, hw1, h⟩ := Traversal.bind_eq_ok_iff.mp h
  obtain ⟨w2, hw2, h⟩ := Traversal.bind_eq_ok_iff.mp h
  exact ⟨w1, w2, hw1, hw2, (Except.ok.inj h).symm⟩

/-- A list is encoded if its items are. -/
theorem exists_of_items {value : Value} {values : List Value} {type item wire : Json}
    {build : List Json → Json} (hstep : builtin.step value type = .items values item build)
    (h : builtin.encode value type = .ok wire) :
    ∃ wires, List.Forall₂ (fun v w => builtin.encode v item = .ok w) values wires ∧
      wire = build wires := by
  rw [encode_of_items hstep] at h
  obtain ⟨wires, hwires, h⟩ := Traversal.bind_eq_ok_iff.mp h
  exact ⟨wires, Traversal.mapM_eq_ok_iff.mp hwires, (Except.ok.inj h).symm⟩

/-- A map is encoded if its keys and values are. -/
theorem exists_of_entries {value : Value} {es : Value.Entries} {type keyType valueType wire : Json}
    {build : List (Json × Json) → Json}
    (hstep : builtin.step value type = .entries es keyType valueType build)
    (h : builtin.encode value type = .ok wire) :
    ∃ wires, List.Forall₂ (fun e w => builtin.encode e.1 keyType = .ok w.1 ∧
      builtin.encode e.2 valueType = .ok w.2) es wires ∧ wire = build wires := by
  rw [encode_of_entries hstep] at h
  obtain ⟨wires, hwires, h⟩ := Traversal.bind_eq_ok_iff.mp h
  refine ⟨wires, ?_, (Except.ok.inj h).symm⟩
  exact (Traversal.mapM_eq_ok_iff.mp hwires).imp fun _ _ hw => Traversal.pair_eq_ok_iff.mp hw

/-- Writes a field for the type of its key. -/
def writePart (part : String × Except EncodeFailure Value × Json) :
    Except EncodeFailure (String × Json) :=
  match part.2.1 with
  | .error failure => .error failure
  | .ok v => do pure (part.1, ← builtin.encode v part.2.2)

theorem encode_of_fields {value : Value} {type : Json}
    {parts : List (String × Except EncodeFailure Value × Json)}
    {finish : List (String × Json) → Json} (h : builtin.step value type = .fields parts finish) :
    builtin.encode value type = (do
      let encoded ← parts.mapM writePart
      pure (finish encoded)) := by
  rw [encode_eq, h]
  rfl

/-- A value that is no record is encoded by the rule for what the type denotes. -/
theorem exists_rule {value : Value} {type wire : Json} (hrecord : ∀ d fs, value ≠ .record d fs)
    (h : builtin.encode value type = .ok wire) : ∃ id rule, Wire.typeId type = .ok id ∧
      builtin.encoders.find? id = some rule ∧
      (ruleStep value type rule).run builtin.encode (builtin.handedOn maxHops) value = .ok wire := by
  rw [encode_eq, step] at h
  split at h
  · cases h
  · rename_i id hid
    split at h
    · rename_i rule hrule
      exact ⟨id, rule, hid, hrule, h⟩
    · cases value with
      | record d fs => exact absurd rfl (hrecord d fs)
      | _ => cases h

/-- The type that a rule is for, except for the rule of sentinels. -/
theorem id_of_rule {id : String} {rule : EncodeRule} (h : builtin.encoders.find? id = some rule) :
    match rule with
      | .inferred => id = TypeId.any
      | .text => id = TypeId.string
      | .reference => id = TypeId.reference
      | .oldList => id = TypeId.oldList
      | .unit => id = TypeId.unit
      | .sentinel target => id = target ∧ (target = TypeId.nothing ∨ target = TypeId.void)
      | .boolean => id = TypeId.boolean
      | .codePoint => id = TypeId.codePoint
      | .list => id = TypeId.list
      | .pair => id = TypeId.pair
      | .map => id = TypeId.map
      | .always _ | .refuse _ | .within _ => False := by
  have hmem := builtin_encoder_mem h
  cases rule <;> simp_all
  rcases hmem with ⟨rfl, rfl⟩ | ⟨rfl, rfl⟩ <;> simp

/-! ### Lists -/

/-- What the rules for lists have in common. -/
structure ListRule (type item : Json) (build : List Json → Json) : Prop where
  /-- The items are encoded for one type. -/
  step (items : List Value) : builtin.step (.list items) type = .items items item build
  /-- The type of the items is asked for on the way. -/
  once (h : KeysOnce type) : KeysOnce item
  /-- The elements of the list are the wire values of the items. -/
  elements (wires : List Json) : Wire.listElements (build wires) = .ok wires
  /-- The list is decoded item by item. -/
  decode (wires : List Json) : builtin.decode (build wires) =
    (do pure (.list (← wires.mapM builtin.decode)))

theorem exists_listRule {items : List Value} {type wire : Json}
    (h : builtin.encode (.list items) type = .ok wire) :
    ∃ item build, ListRule type item build := by
  obtain ⟨id, rule, hid, hrule, h⟩ := exists_rule (by rintro _ _ ⟨⟩) h
  have hstep := fun values => step_of_rule rule hid hrule (.list values)
  have hrule := id_of_rule hrule
  have hany : ∀ wires, Wire.listElements (inferredList wires) = .ok wires ∧
      builtin.decode (inferredList wires) = (do pure (.list (← wires.mapM builtin.decode))) :=
    fun wires => ⟨Wire.listElements_listWith .., decode_listWith (Wire.typeId_listOf _) wires⟩
  cases rule with
  | inferred =>
    exact ⟨_, inferredList, hstep, fun _ => keysOnce_reference _, fun ws => (hany ws).1,
      fun ws => (hany ws).2⟩
  | oldList =>
    exact ⟨_, oldListWire, hstep, fun _ => keysOnce_reference _, listElements_oldListWire,
      decode_oldListWire⟩
  | list =>
    have htype : Wire.typeId type = .ok TypeId.list := hid.trans (congrArg Except.ok hrule)
    cases harg : Wire.argumentOf? type "Z881K1" with
    | some item =>
      simp only [ruleStep, harg] at hstep
      exact ⟨item, Wire.listWith type, hstep, fun honce => honce.argument (by decide) harg,
        Wire.listElements_listWith type, decode_listWith htype⟩
    | none =>
      simp only [ruleStep, harg] at hstep
      exact ⟨_, inferredList, hstep, fun _ => keysOnce_reference _, fun ws => (hany ws).1,
        fun ws => (hany ws).2⟩
  | always | refuse | within => exact hrule.elim
  | _ => cases h

/-- Items that settle are decoded, and encoded to the same again exactly when they came back. -/
theorem exists_decoded_items {values : List Value} {wires : List Json} {item : Json}
    (h : List.Forall₂ (fun v w => Settles v item item w) values wires) :
    ∃ vs, wires.mapM builtin.decode = .ok vs ∧
      ((vs.mapM fun v => builtin.encode v item) = .ok wires ↔
        Value.echoesItems vs values = true) ∧
      (Value.echoesItems vs values = true ↔ ∀ v ∈ values, Intact v item) := by
  simp only [Value.echoesItems_iff, Traversal.mapM_eq_ok_iff]
  induction h with
  | nil => exact ⟨[], .nil, iff_of_true .nil .nil, iff_of_true .nil (by rintro _ ⟨⟩)⟩
  | cons hv _ ih =>
    obtain ⟨v, hdecode, hiff, hintact⟩ := hv
    obtain ⟨vs, hdecodes, hiffs, hintacts⟩ := ih
    refine ⟨v :: vs, .cons hdecode hdecodes, ?_, ?_⟩
    · rw [List.forall₂_cons, List.forall₂_cons, hiff, hiffs]
    · rw [List.forall₂_cons, List.forall_mem_cons, hintact, hintacts]

theorem settles_list {type item : Json} {build : List Json → Json} (hrule : ListRule type item build)
    {values : List Value} {wires : List Json}
    (h : List.Forall₂ (fun v w => Settles v item item w) values wires) :
    Settles (.list values) type type (build wires) := by
  obtain ⟨vs, hdecode, hiff, hintact⟩ := exists_decoded_items h
  refine ⟨.list vs, ?_, ?_, by rw [Value.echoes, hintact, intact_list_iff (hrule.step values)]⟩
  · rw [hrule.decode, hdecode]
    rfl
  · rw [Value.echoes, ← hiff, encode_of_items (hrule.step vs)]
    constructor
    · intro hencode
      obtain ⟨wires', hwires, hbuild⟩ := Traversal.bind_eq_ok_iff.mp hencode
      -- The elements tell what the list was built from.
      have helements := hrule.elements wires'
      rw [Except.ok.inj hbuild, hrule.elements wires] at helements
      obtain rfl := Except.ok.inj helements
      exact hwires
    · intro hencode
      rw [hencode]
      rfl

/-! ### Pairs -/

theorem pairWire_inj {t t' x y x' y' : Json} (h : pairWire t x y = pairWire t' x' y') :
    x = x' ∧ y = y' := by
  have hfields := Json.obj.inj h
  simp only [List.cons.injEq, Prod.mk.injEq, true_and, and_true] at hfields
  exact ⟨hfields.1, hfields.2.1⟩

/-- A pair that comes back with the type that it is written with settles if its slots do. -/
theorem settles_pair (tag : Json → Json → Json) {type t1 t2 again1 again2 w1 w2 : Json}
    (htag : Wire.typeId (tag w1 w2) = .ok TypeId.pair) {first second : Value}
    {declared : Option Json} {finish : Json → Json → Json}
    (hfirst : builtin.step (.pair first second declared) type = .slots first second t1 t2 finish)
    (hstep : ∀ a b, builtin.step (.pair a b (some (tag w1 w2))) type =
      .slots a b again1 again2 fun x y => pairWire (tag x y) x y)
    (h1 : Settles first t1 again1 w1) (h2 : Settles second t2 again2 w2) :
    Settles (.pair first second declared) type type (pairWire (tag w1 w2) w1 w2) := by
  obtain ⟨v1, hdecode1, hiff1, hintact1⟩ := h1
  obtain ⟨v2, hdecode2, hiff2, hintact2⟩ := h2
  refine ⟨.pair v1 v2 (some (tag w1 w2)), ?_, ?_, by
    rw [Value.echoes, Bool.and_eq_true, hintact1, hintact2, intact_pair_iff hfirst]⟩
  · rw [decode_pairWire htag, hdecode1, hdecode2]
    rfl
  · rw [Value.echoes, Bool.and_eq_true, ← hiff1, ← hiff2]
    constructor
    · intro hencode
      obtain ⟨x, y, hx, hy, hpair⟩ := exists_of_slots (hstep v1 v2) hencode
      obtain ⟨rfl, rfl⟩ := pairWire_inj hpair
      exact ⟨hx, hy⟩
    · rintro ⟨hx, hy⟩
      rw [encode_of_slots (hstep v1 v2), hx, hy]
      rfl

/-! ### Maps -/

/-- What the rules for maps have in common. -/
structure MapRule (type keyType valueType : Json) (tag pairTag : List (Json × Json) → Json) :
    Prop where
  /-- The keys are encoded for one type and the values for one. -/
  step (es : Value.Entries) : builtin.step (.map es) type =
    .entries es keyType valueType fun wires => mapWire (tag wires) (pairTag wires) wires
  /-- Both types are asked for on the way. -/
  once (h : KeysOnce type) : KeysOnce keyType ∧ KeysOnce valueType
  /-- The map is written with a type of maps. -/
  typeId_tag (wires : List (Json × Json)) : Wire.typeId (tag wires) = .ok TypeId.map
  /-- The entries are written with a type of pairs. -/
  typeId_pairTag (wires : List (Json × Json)) : Wire.typeId (pairTag wires) = .ok TypeId.pair

theorem exists_mapRule {es : Value.Entries} {type wire : Json}
    (h : builtin.encode (.map es) type = .ok wire) :
    ∃ keyType valueType tag pairTag, MapRule type keyType valueType tag pairTag := by
  obtain ⟨id, rule, hid, hrule, h⟩ := exists_rule (by rintro _ _ ⟨⟩) h
  have hstep := fun entries => step_of_rule rule hid hrule (.map entries)
  have hrule := id_of_rule hrule
  have hany := keysOnce_reference TypeId.any
  cases rule with
  | inferred =>
    exact ⟨_, _, _, _, hstep, fun _ => ⟨hany, hany⟩, fun _ => Wire.typeId_mapOf ..,
      fun _ => Wire.typeId_pairOf ..⟩
  | map =>
    have htype : Wire.typeId type = .ok TypeId.map := hid.trans (congrArg Except.ok hrule)
    simp only [ruleStep] at hstep
    split at hstep
    · rename_i keyType valueType hkey hvalue
      exact ⟨keyType, valueType, fun _ => type, fun _ => Wire.pairOf keyType valueType, hstep,
        fun honce => ⟨honce.argument (by decide) hkey, honce.argument (by decide) hvalue⟩,
        fun _ => htype, fun _ => Wire.typeId_pairOf ..⟩
    · exact ⟨_, _, _, _, hstep, fun _ => ⟨hany, hany⟩, fun _ => Wire.typeId_mapOf ..,
        fun _ => Wire.typeId_pairOf ..⟩
  | always | refuse | within => exact hrule.elim
  | _ => cases h

theorem mapWire_inj {t p t' p' : Json} {wires wires' : List (Json × Json)}
    (h : mapWire t p wires = mapWire t' p' wires') : wires = wires' := by
  have hfields := Json.obj.inj h
  simp only [List.cons.injEq, Prod.mk.injEq, true_and] at hfields
  have helements := Wire.listElements_listWith (Wire.listOf p)
    (wires.map fun w => pairWire p w.1 w.2)
  rw [hfields.1, Wire.listElements_listWith] at helements
  have hpairs := Except.ok.inj helements
  clear h hfields helements
  induction wires generalizing wires' with
  | nil => exact (List.map_eq_nil_iff.mp hpairs).symm
  | cons w wires ih =>
    cases wires' with
    | nil => cases hpairs
    | cons w' wires' =>
      obtain ⟨hw, hrest⟩ := List.cons.inj hpairs
      obtain ⟨hk, hv⟩ := pairWire_inj hw
      rw [ih hrest, Prod.ext hk.symm hv.symm]

/-- Entries that settle are decoded, and encoded to the same again exactly when they came back. -/
theorem exists_decoded_entries {es : Value.Entries} {wires : List (Json × Json)}
    {keyType valueType : Json} (h : List.Forall₂ (fun e w => builtin.encode e.1 keyType = .ok w.1 ∧
      Settles e.1 keyType keyType w.1 ∧ Settles e.2 valueType valueType w.2) es wires) :
    ∃ fs : Value.Entries, List.Forall₂ (fun w f => builtin.decode w.1 = .ok f.1 ∧
        builtin.decode w.2 = .ok f.2) wires fs ∧
      List.Forall₂ (fun e f => ComesBackAs e.1 keyType f.1) es fs ∧
      ((fs.mapM fun f => do
        let k ← builtin.encode f.1 keyType
        let v ← builtin.encode f.2 valueType
        pure (k, v)) = .ok wires ↔ Value.echoesEntries fs es = true) ∧
      (Value.echoesEntries fs es = true ↔
        ∀ e ∈ es, Intact e.1 keyType ∧ Intact e.2 valueType) := by
  simp only [Value.echoesEntries_iff, Traversal.mapM_eq_ok_iff, Traversal.pair_eq_ok_iff]
  induction h with
  | nil => exact ⟨[], .nil, .nil, iff_of_true .nil .nil, iff_of_true .nil (by rintro _ ⟨⟩)⟩
  | cons he _ ih =>
    obtain ⟨hkey, ⟨k, hk, hkiff, hkintact⟩, v, hv, hviff, hvintact⟩ := he
    obtain ⟨fs, hdecodes, hkeys, hiffs, hintacts⟩ := ih
    refine ⟨(k, v) :: fs, .cons ⟨hk, hv⟩ hdecodes, .cons ⟨_, hkey, hk⟩ hkeys, ?_, ?_⟩
    · rw [List.forall₂_cons, List.forall₂_cons, hkiff, hviff, hiffs]
    · rw [List.forall₂_cons, List.forall_mem_cons, hkintact, hvintact, hintacts]

theorem settles_map {type keyType valueType : Json} {tag pairTag : List (Json × Json) → Json}
    (hrule : MapRule type keyType valueType tag pairTag) {es : Value.Entries}
    {wires : List (Json × Json)}
    (h : List.Forall₂ (fun e w => builtin.encode e.1 keyType = .ok w.1 ∧
      Settles e.1 keyType keyType w.1 ∧ Settles e.2 valueType valueType w.2) es wires) :
    Settles (.map es) type type (mapWire (tag wires) (pairTag wires) wires) := by
  obtain ⟨fs, hdecode, hkeys, hiff, hintact⟩ := exists_decoded_entries h
  have hlength : fs.length = es.length := hkeys.length_eq.symm
  refine ⟨.map (Value.Entries.ofList fs),
    decode_mapWire_ofList (hrule.typeId_tag wires) (hrule.typeId_pairTag wires) hdecode, ?_, ?_⟩
  · rw [Value.echoes, encode_of_entries (hrule.step _)]
    constructor
    · intro hencode
      obtain ⟨wires', hagain, hbuild⟩ := Traversal.bind_eq_ok_iff.mp hencode
      obtain rfl := mapWire_inj (Except.ok.inj hbuild)
      -- As many entries are there as were inserted, so none is lost.
      have hall : Value.Entries.ofList fs = fs := Value.Entries.foldl_insert_of_length (by
        rw [List.length_nil, Nat.zero_add]
        exact (Traversal.mapM_eq_ok_iff.mp hagain).length_eq.trans hdecode.length_eq)
      rw [hall] at hagain ⊢
      exact hiff.mp hagain
    · intro hecho
      obtain ⟨hdiffer, hecho⟩ := (Value.echoesEntries_ofList_iff hlength).mp hecho
      rw [Value.Entries.ofList_of_keysDiffer hdiffer, hiff.mpr hecho]
      rfl
  · rw [Value.echoes, Value.echoesEntries_ofList_iff hlength, hintact,
      intact_map_iff (hrule.step es), keysStayApart_iff hkeys]

/-! ### Records -/

/-- Where there is no rule for encoding there is none for decoding. -/
theorem decoder_eq_none {id : String} (h : builtin.encoders.find? id = none) :
    builtin.decoders.find? id = none := by
  cases hrule : builtin.decoders.find? id with
  | none => rfl
  | some rule =>
    have hmem := Json.Fields.mem_ofList (Json.Fields.mem_of_find? hrule)
    simp only [List.mem_cons, List.not_mem_nil, or_false, Prod.mk.injEq] at hmem
    rcases hmem with h' | h' | h' | h' | h' | h' | h' | h' | h' | h' | h' <;>
      · rw [h'.1] at h
        cases h

/-- The keys that a record is written with, and the types of their values: those that its type
declares, or else all that it has. -/
def IsWrittenWith (type : Json) (fields : Json.Fields Value) (keys : List (String × Json)) : Prop :=
  keysOfType? type = .ok (some keys) ∨
    keysOfType? type = .ok none ∧ keys = fields.map fun f => (f.1, Wire.reference TypeId.any)

/-- The value of a field, or the given failure if there is none. -/
def valueOr (missing : EncodeFailure) (fields : Json.Fields Value) (name : String) :
    Except EncodeFailure Value :=
  match fields.find? name with
  | some v => .ok v
  | none => .error missing

theorem writePart_eq_ok_iff {missing : EncodeFailure} {fields : Json.Fields Value}
    {key w : String × Json} : writePart (key.1, valueOr missing fields key.1, key.2) = .ok w ↔
      w.1 = key.1 ∧ ∃ v, fields.find? key.1 = some v ∧ builtin.encode v key.2 = .ok w.2 := by
  rw [writePart, valueOr]
  cases hfind : fields.find? key.1 with
  | none => simp
  | some v =>
    simp only [Option.some.injEq, exists_eq_left']
    constructor
    · intro h
      obtain ⟨x, hx, h⟩ := Traversal.bind_eq_ok_iff.mp h
      obtain rfl := Except.ok.inj h
      exact ⟨rfl, hx⟩
    · rintro ⟨hname, hw⟩
      rw [hw, ← hname]
      rfl

/-- The failure of a record without a field that its type declares. -/
def missingKey (declared : Option Json) (fields : Json.Fields Value) (name : String) : EncodeFailure :=
  .error (.encode ((Value.record declared fields).display ++ " (missing declared key " ++ name ++ ")"))

/-- A record is taken apart key by key. -/
theorem step_record {declared : Option Json} {fields : Json.Fields Value} {type : Json}
    {id : String} (hid : Wire.typeId type = .ok id) (hrule : builtin.encoders.find? id = none)
    (hasc : fields.Ascending) {keys : List (String × Json)} (hkeys : IsWrittenWith type fields keys) :
    builtin.step (.record declared fields) type =
      .fields
        (keys.map fun key => (key.1, valueOr (missingKey declared fields key.1) fields key.1, key.2))
        fun values => Json.object (("Z1K1", type) :: values) := by
  rw [step, hid]
  simp only [hrule, recordStep]
  rcases hkeys with hkeys | ⟨hkeys, rfl⟩
  · simp only [hkeys]
    rfl
  · -- Every field is found under its own key.
    rw [hkeys, List.map_map]
    refine congrArg (Step.fields · _) (List.map_congr_left fun f hf => ?_)
    simp only [Function.comp, valueOr, Json.Fields.find?_of_mem hasc hf]

/-- A record is intact if the values under its keys are. -/
theorem intact_record_iff_keys {declared : Option Json} {fields : Json.Fields Value} {type : Json}
    {id : String} (hid : Wire.typeId type = .ok id) (hrule : builtin.encoders.find? id = none)
    (hasc : fields.Ascending) {keys : List (String × Json)} (hkeys : IsWrittenWith type fields keys) :
    Intact (.record declared fields) type ↔
      ∀ key ∈ keys, ∀ v, fields.find? key.1 = some v → Intact v key.2 := by
  rw [intact_record_iff (step_record hid hrule hasc hkeys), List.forall_mem_map]
  refine forall₂_congr fun key _ => forall_congr' fun v => ?_
  rw [valueOr]
  cases fields.find? key.1 <;> simp

/-- A record is written key by key. -/
theorem encode_record_iff {declared : Option Json} {fields : Json.Fields Value} {type : Json}
    {id : String} (hid : Wire.typeId type = .ok id) (hrule : builtin.encoders.find? id = none)
    (hasc : fields.Ascending) {keys : List (String × Json)} (hkeys : IsWrittenWith type fields keys)
    {wire : Json} : builtin.encode (.record declared fields) type = .ok wire ↔
      ∃ wires : List (String × Json), List.Forall₂ (fun key w => w.1 = key.1 ∧
          ∃ v, fields.find? key.1 = some v ∧ builtin.encode v key.2 = .ok w.2) keys wires ∧
        wire = Json.object (("Z1K1", type) :: wires) := by
  rw [encode_of_fields (step_record hid hrule hasc hkeys), List.mapM_map, Traversal.bind_eq_ok_iff]
  simp only [Traversal.mapM_eq_ok_iff, Function.comp, writePart_eq_ok_iff]
  refine exists_congr fun wires => and_congr_right fun _ => ?_
  exact ⟨fun h => (Except.ok.inj h).symm, fun h => congrArg Except.ok h.symm⟩

/-- The fields of a tagged object are told by it, if their names are known. -/
theorem tagged_inj {type : Json} {wires others : List (String × Json)}
    (hno : ∀ w ∈ wires, w.1 ≠ "Z1K1") (hnames : wires.map (·.1) = others.map (·.1))
    (hnodup : (wires.map (·.1)).Nodup)
    (h : Json.object (("Z1K1", type) :: wires) = Json.object (("Z1K1", type) :: others)) :
    wires = others := by
  have hno' : ∀ w ∈ others, w.1 ≠ "Z1K1" := by
    intro w hw
    have hmem : w.1 ∈ wires.map (·.1) := hnames ▸ List.mem_map_of_mem hw
    obtain ⟨w', hw', heq⟩ := List.mem_map.mp hmem
    exact heq ▸ hno w' hw'
  have hfields := congrArg (Json.Fields.erase · "Z1K1") (Json.obj.inj h)
  simp only [Json.Fields.erase_ofList_cons type hno, Json.Fields.erase_ofList_cons type hno']
    at hfields
  exact Json.Fields.ofList_inj hnames hnodup hfields

/-- Fields that are decoded one by one make a record with the same names. -/
theorem exists_decoded_fields {wires : List (String × Json)} (hnodup : (wires.map (·.1)).Nodup)
    (hdecode : ∀ w ∈ wires, ∃ v, builtin.decode w.2 = .ok v) :
    ∃ vs : Json.Fields Value,
      (Json.Fields.ofList wires).mapM (fun f => do pure (f.1, ← builtin.decode f.2)) = .ok vs ∧
      vs.map (·.1) = (Json.Fields.ofList wires).map (·.1) ∧ vs.Ascending ∧
      ∀ w ∈ wires, ∃ v, vs.find? w.1 = some v ∧ builtin.decode w.2 = .ok v := by
  have hperm := Json.Fields.perm_ofList (List.pairwise_map.mp hnodup)
  have hfield : ∀ f ∈ Json.Fields.ofList wires, ∃ g : String × Value,
      (do pure (f.1, ← builtin.decode f.2)) = Except.ok g := by
    intro f hf
    obtain ⟨v, hv⟩ := hdecode f (hperm.mem_iff.mp hf)
    exact ⟨(f.1, v), by rw [hv]; rfl⟩
  obtain ⟨vs, hvs⟩ := Traversal.exists_mapM_eq_ok_iff.mpr hfield
  have hall : List.Forall₂ (fun f g => g.1 = f.1 ∧ builtin.decode f.2 = .ok g.2)
      (Json.Fields.ofList wires) vs := by
    refine (Traversal.mapM_eq_ok_iff.mp hvs).imp fun f g hg => ?_
    obtain ⟨v, hv, hg⟩ := Traversal.bind_eq_ok_iff.mp hg
    obtain rfl := Except.ok.inj hg
    exact ⟨rfl, hv⟩
  have hnames := Traversal.map_eq_map_of_forall₂ (hall.imp fun _ _ h => h.1)
  have hasc : Json.Fields.Ascending vs :=
    (Json.Fields.ascending_congr hnames).mpr (Json.Fields.ascending_ofList wires)
  refine ⟨vs, hvs, hnames, hasc, fun w hw => ?_⟩
  obtain ⟨g, hg⟩ := Traversal.exists_mem_zip_of_mem hall (hperm.mem_iff.mpr hw)
  obtain ⟨hname, hdec⟩ := List.forall₂_zip hall hg
  exact ⟨g.2, hname ▸ Json.Fields.find?_of_mem hasc (List.of_mem_zip hg).2, hdec⟩

/-- A decoded record is written like the first one exactly when the values of its fields are. -/
theorem encode_tagged_iff {type : Json} {id : String} (hid : Wire.typeId type = .ok id)
    (hrule : builtin.encoders.find? id = none) {keys wires : List (String × Json)}
    (hkeys : List.Forall₂ (fun key w => w.1 = key.1) keys wires)
    (hnodup : (wires.map (·.1)).Nodup) (hno : ∀ w ∈ wires, w.1 ≠ "Z1K1")
    {vs fields : Json.Fields Value} (hasc : vs.Ascending)
    (hwritten : IsWrittenWith type vs keys) (hvs : ∀ f ∈ vs, ∃ key ∈ keys, key.1 = f.1)
    (hagain : ∀ key w, (key, w) ∈ keys.zip wires → ∃ v y, vs.find? key.1 = some v ∧
      fields.find? key.1 = some y ∧ (builtin.encode v key.2 = .ok w.2 ↔ v.echoes y = true)) :
    builtin.encode (.record (some type) vs) type =
        .ok (Json.object (("Z1K1", type) :: wires)) ↔ Value.echoesFields vs fields = true := by
  have hnames := Traversal.map_eq_map_of_forall₂ hkeys
  rw [encode_record_iff hid hrule hasc hwritten, Value.echoesFields_iff]
  constructor
  · rintro ⟨wires', hwires', hobject⟩ f hf
    have hnames' := Traversal.map_eq_map_of_forall₂ (hwires'.imp fun _ _ h => h.1)
    obtain rfl := tagged_inj hno (hnames.trans hnames'.symm) hnodup hobject
    obtain ⟨key, hkey, hname⟩ := hvs f hf
    obtain ⟨w, hw⟩ := Traversal.exists_mem_zip_of_mem hkeys hkey
    obtain ⟨v, y, hv, hy, hiff⟩ := hagain key w hw
    obtain ⟨-, v', hv', hencode⟩ := List.forall₂_zip hwires' hw
    obtain rfl := Option.some.inj (hv.symm.trans hv')
    have hfind := Json.Fields.find?_of_mem hasc hf
    rw [← hname, hv] at hfind
    exact ⟨y, hname ▸ hy, Option.some.inj hfind ▸ hiff.mp hencode⟩
  · intro hecho
    refine ⟨wires, List.forall₂_iff_zip.mpr ⟨hkeys.length_eq, fun {key w} hw => ?_⟩, rfl⟩
    obtain ⟨v, y, hv, hy, hiff⟩ := hagain key w hw
    obtain ⟨y', hy', hvy⟩ := hecho (key.1, v) (Json.Fields.mem_of_find? hv)
    obtain rfl := Option.some.inj (hy.symm.trans hy')
    exact ⟨List.forall₂_zip hkeys hw, v, hv, hiff.mpr hvy⟩

/-- The fields of a decoded record came back exactly when the values of all keys did. -/
theorem echoesFields_iff_keys {keys : List (String × Json)} {vs fields : Json.Fields Value}
    (hasc : vs.Ascending) (hvs : ∀ f ∈ vs, ∃ key ∈ keys, key.1 = f.1)
    (hkey : ∀ key ∈ keys, ∃ v y, vs.find? key.1 = some v ∧ fields.find? key.1 = some y ∧
      (v.echoes y = true ↔ Intact y key.2)) :
    Value.echoesFields vs fields = true ↔
      ∀ key ∈ keys, ∀ y, fields.find? key.1 = some y → Intact y key.2 := by
  rw [Value.echoesFields_iff]
  constructor
  · intro hecho key hmem y hy
    obtain ⟨v, y', hv, hy', hiff⟩ := hkey key hmem
    obtain ⟨y'', hy'', hvy⟩ := hecho (key.1, v) (Json.Fields.mem_of_find? hv)
    obtain rfl := Option.some.inj (hy.symm.trans hy')
    obtain rfl := Option.some.inj (hy.symm.trans hy'')
    exact hiff.mp hvy
  · intro hintact f hf
    obtain ⟨key, hmem, hname⟩ := hvs f hf
    obtain ⟨v, y, hv, hy, hiff⟩ := hkey key hmem
    have hfind := Json.Fields.find?_of_mem hasc hf
    rw [← hname, hv] at hfind
    exact ⟨y, hname ▸ hy, Option.some.inj hfind ▸ hiff.mpr (hintact key hmem y hy)⟩

/-- The keys of a record have different names and types that are asked for on the way. -/
theorem IsWrittenWith.spec {type : Json} {fields : Json.Fields Value}
    {keys : List (String × Json)} (h : IsWrittenWith type fields keys) (honce : KeysOnce type)
    (hasc : fields.Ascending) : (keys.map (·.1)).Nodup ∧ ∀ key ∈ keys, KeysOnce key.2 := by
  rcases h with hdeclared | ⟨-, rfl⟩
  · exact ⟨honce type keys (.self type) hdeclared, fun key hkey => honce.key hdeclared hkey⟩
  · refine ⟨?_, fun key hkey => ?_⟩
    · rw [List.map_map]
      exact Json.Fields.nodup_keys hasc
    · obtain ⟨f, -, rfl⟩ := List.mem_map.mp hkey
      exact keysOnce_reference _

/-- Decoded fields are written with the same keys as those that they were decoded from. -/
theorem IsWrittenWith.of_decoded {type : Json} {fields vs : Json.Fields Value}
    {keys wires : List (String × Json)} (h : IsWrittenWith type fields keys)
    (hasc : fields.Ascending) (hnames : wires.map (·.1) = keys.map (·.1))
    (hvs : vs.map (·.1) = (Json.Fields.ofList wires).map (·.1)) : IsWrittenWith type vs keys := by
  refine h.imp (fun hdeclared => hdeclared) fun ⟨hdeclared, hall⟩ => ⟨hdeclared, ?_⟩
  -- Without declared keys the fields are written in order already.
  have hfields : wires.map (·.1) = fields.map (·.1) := by
    rw [hnames, hall, List.map_map]
    rfl
  have hwires : Json.Fields.Ascending wires := (Json.Fields.ascending_congr hfields).mpr hasc
  rw [Json.Fields.ofList_of_ascending hwires, hfields] at hvs
  have hkeys := congrArg (List.map fun name => (name, Wire.reference TypeId.any)) hvs
  rw [List.map_map, List.map_map] at hkeys
  exact hall.trans hkeys.symm

/-- What is written of a record: a wire value for each key, and none of them is the tag. -/
theorem exists_written_fields {declared : Option Json} {fields : Json.Fields Value} {type : Json}
    {id : String} (hid : Wire.typeId type = .ok id) (hrule : builtin.encoders.find? id = none)
    (hasc : fields.Ascending) (hno : ∀ f ∈ fields, f.1 ≠ "Z1K1") {wire : Json}
    (h : builtin.encode (.record declared fields) type = .ok wire) :
    ∃ keys wires, IsWrittenWith type fields keys ∧
      List.Forall₂ (fun key w => w.1 = key.1 ∧
        ∃ v, fields.find? key.1 = some v ∧ builtin.encode v key.2 = .ok w.2) keys wires ∧
      (∀ w ∈ wires, w.1 ≠ "Z1K1") ∧ wire = Json.object (("Z1K1", type) :: wires) := by
  obtain ⟨keys, hkeys⟩ : ∃ keys, IsWrittenWith type fields keys := by
    cases hdeclared : keysOfType? type with
    | error e =>
      rw [encode_eq, step, hid] at h
      simp only [hrule, recordStep, hdeclared] at h
      cases h
    | ok keys =>
      cases keys with
      | some keys => exact ⟨keys, .inl hdeclared⟩
      | none => exact ⟨_, .inr ⟨hdeclared, rfl⟩⟩
  obtain ⟨wires, hwires, hwire⟩ := (encode_record_iff hid hrule hasc hkeys).mp h
  refine ⟨keys, wires, hkeys, hwires, fun w hw => ?_, hwire⟩
  obtain ⟨key, hzip⟩ := Traversal.exists_mem_zip_of_mem_right hwires hw
  obtain ⟨hname, y, hy, -⟩ := List.forall₂_zip hwires hzip
  exact hname ▸ hno _ (Json.Fields.mem_of_find? hy)

theorem tagOf_object {type : Json} {wires : List (String × Json)}
    (hno : ∀ w ∈ wires, w.1 ≠ "Z1K1") : tagOf (Json.object (("Z1K1", type) :: wires)) = type := by
  show ((Json.Fields.ofList _).find? "Z1K1").getD .null = type
  rw [Json.Fields.find?_ofList_cons type hno, Option.getD_some]

/-- A record that is written with the keys of its type settles if the values of its fields do, and
comes back with that type. -/
theorem settles_record {declared : Option Json} {fields : Json.Fields Value} {type : Json}
    {id : String} (hid : Wire.typeId type = .ok id) (hrule : builtin.encoders.find? id = none)
    (honce : KeysOnce type) (hasc : fields.Ascending) (hno : ∀ f ∈ fields, f.1 ≠ "Z1K1")
    (hparts : ∀ f ∈ fields, ∀ t w, KeysOnce t → builtin.encode f.2 t = .ok w → Settles f.2 t t w)
    {wire : Json} (h : builtin.encode (.record declared fields) type = .ok wire) :
    ∃ vs, builtin.decode wire = .ok (.record (some type) vs) ∧
      (builtin.encode (.record (some type) vs) type = .ok wire ↔
        Value.echoesFields vs fields = true) ∧
      (Value.echoesFields vs fields = true ↔ Intact (.record declared fields) type) := by
  obtain ⟨keys, wires, hkeys, hwires, hnoZ1K1, rfl⟩ := exists_written_fields hid hrule hasc hno h
  obtain ⟨hkeysnodup, honcekey⟩ := hkeys.spec honce hasc
  have hwirekeys : List.Forall₂ (fun key w => w.1 = key.1) keys wires :=
    hwires.imp fun _ _ h => h.1
  have hnames := Traversal.map_eq_map_of_forall₂ hwirekeys
  have hnodup : (wires.map (·.1)).Nodup := hnames ▸ hkeysnodup
  -- Each wire value is that of a field, and settles.
  have hkey : ∀ key w, (key, w) ∈ keys.zip wires → w.1 = key.1 ∧
      ∃ y, fields.find? key.1 = some y ∧ Settles y key.2 key.2 w.2 := by
    intro key w hw
    obtain ⟨hname, y, hy, hencode⟩ := List.forall₂_zip hwires hw
    have hmem := Json.Fields.mem_of_find? hy
    exact ⟨hname, y, hy,
      hparts _ hmem key.2 w.2 (honcekey key (List.of_mem_zip hw).1) hencode⟩
  obtain ⟨vs, hvs, hvsnames, hvsasc, hfind⟩ := exists_decoded_fields hnodup fun w hw => by
    obtain ⟨key, hzip⟩ := Traversal.exists_mem_zip_of_mem_right hwires hw
    obtain ⟨-, y, -, v, hv, -⟩ := hkey key w hzip
    exact ⟨v, hv⟩
  have hvskeys : ∀ f ∈ vs, ∃ key ∈ keys, key.1 = f.1 := by
    intro f hf
    have hperm := (Json.Fields.perm_ofList (List.pairwise_map.mp hnodup)).map (·.1)
    have hname : f.1 ∈ keys.map (·.1) := by
      rw [← hnames, ← hperm.mem_iff, ← hvsnames]
      exact List.mem_map_of_mem hf
    exact List.mem_map.mp hname
  have hwritten : IsWrittenWith type vs keys := hkeys.of_decoded hasc hnames hvsnames
  have hagain : ∀ key w, (key, w) ∈ keys.zip wires → ∃ v y, vs.find? key.1 = some v ∧
      fields.find? key.1 = some y ∧ (builtin.encode v key.2 = .ok w.2 ↔ v.echoes y = true) ∧
      (v.echoes y = true ↔ Intact y key.2) := by
    intro key w hw
    obtain ⟨hname, y, hy, v, hdecode, hiff, hintact⟩ := hkey key w hw
    obtain ⟨v', hv', hdecode'⟩ := hfind w (List.of_mem_zip hw).2
    obtain rfl := Except.ok.inj (hdecode.symm.trans hdecode')
    exact ⟨v, y, hname ▸ hv', hy, hiff, hintact⟩
  refine ⟨vs, ?_, ?_, ?_⟩
  · rw [decode_record hid (decoder_eq_none hrule) hnoZ1K1, hvs]
    rfl
  · refine encode_tagged_iff hid hrule hwirekeys hnodup hnoZ1K1 hvsasc hwritten hvskeys
      fun key w hw => ?_
    obtain ⟨v, y, hv, hy, hiff, -⟩ := hagain key w hw
    exact ⟨v, y, hv, hy, hiff⟩
  · rw [intact_record_iff_keys hid hrule hasc hkeys]
    refine echoesFields_iff_keys hvsasc hvskeys fun key hmem => ?_
    obtain ⟨w, hw⟩ := Traversal.exists_mem_zip_of_mem hwirekeys hmem
    obtain ⟨v, y, hv, hy, -, hintact⟩ := hagain key w hw
    exact ⟨v, y, hv, hy, hintact⟩

end Polyglot.Codec
