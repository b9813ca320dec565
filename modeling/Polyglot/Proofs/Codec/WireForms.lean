import Polyglot.Codec.Encoding
import Polyglot.Proofs.Codec.Decoding
import Polyglot.Proofs.Value.Equality
import Polyglot.Proofs.Wire.GenericType

/-!
# Decoding what is built

What the rules known by name make of the wire forms that encoding builds: literals and references,
typed and old lists (`decode_listWith`, `decode_oldListWire`), pairs (`decode_pairWire`), maps
(`decode_mapWire`) and records (`decode_record`).
-/

namespace Polyglot.Codec

/-- Decoding an object by the rule for what its type denotes. -/
theorem decode_obj_of_type (type : Json) (rule : Option DecodeRule) {fields : Json.Fields Json}
    {id : String} (htype : fields.find? "Z1K1" = some type)
    (hid : Wire.typeId type = .ok id) (hrule : builtin.decoders.find? id = rule) :
    builtin.decode (.obj fields) = objectValue builtin.decode fields rule := by
  have h : Wire.typeOf (.obj fields) = .ok id := by
    have hfield : (Json.obj fields).field? "Z1K1" = some type := htype
    rw [Wire.typeOf, hfield]
    exact hid
  rw [decode_obj h, hrule]

/-! ### Values without parts -/

theorem decode_text (s : String) : builtin.decode (Wire.text s) = .ok (.text s) := by
  rw [Wire.text, decode_obj_of_type (.str TypeId.string) (some .text) rfl (Wire.typeId_str _) rfl]
  rfl

theorem decode_reference (id : String) :
    builtin.decode (Wire.reference id) = .ok (valueOfId id) := by
  rw [Wire.reference, decode_obj_of_type (.str TypeId.reference) (some .reference) rfl
    (Wire.typeId_str _) rfl]
  rfl

theorem decode_unitWire : builtin.decode unitWire = .ok .unit := by
  rw [unitWire, decode_obj_of_type (Wire.reference TypeId.unit) (some .unit) rfl
    (Wire.typeId_reference _) rfl]
  rfl

theorem decode_booleanWire (b : Bool) : builtin.decode (booleanWire b) = .ok (.flag b) := by
  rw [booleanWire, decode_obj_of_type (Wire.reference TypeId.boolean) (some .boolean) rfl
    (Wire.typeId_reference _) rfl]
  -- The field refers to one of the two truth values.
  show (do
    let id ← Wire.typeId (Wire.reference (if b then TypeId.true else TypeId.false))
    if id = TypeId.true then Except.ok (Value.flag true)
    else if id = TypeId.false then .ok (.flag false) else _) = _
  rw [Wire.typeId_reference]
  cases b <;> rfl

theorem decode_codePointWire (s : String) : builtin.decode (codePointWire s) = .ok (.text s) := by
  rw [codePointWire, decode_obj_of_type (Wire.reference TypeId.codePoint) (some .codePoint) rfl
    (Wire.typeId_reference _) rfl]
  rfl

/-! ### Lists -/

theorem exists_listWith (type : Json) (elements : List Json) : ∃ fields : Json.Fields Json,
    Wire.listWith type elements = .obj fields ∧ fields.find? "Z1K1" = some type := by
  cases elements with
  | nil => exact ⟨_, rfl, rfl⟩
  | cons head rest => exact ⟨_, rfl, rfl⟩

theorem decode_listWith {type : Json} (htype : Wire.typeId type = .ok TypeId.list)
    (elements : List Json) : builtin.decode (Wire.listWith type elements) =
      (do pure (.list (← elements.mapM builtin.decode))) := by
  obtain ⟨fields, hobj, hfield⟩ := exists_listWith type elements
  have hlist := Wire.listElements_listWith type elements
  rw [hobj] at hlist ⊢
  rw [decode_obj_of_type type (some .list) hfield htype rfl, objectValue, hlist]
  rfl

theorem listElements_oldListWire (elements : List Json) :
    Wire.listElements (oldListWire elements) = .ok elements := by
  induction elements with
  | nil => exact Wire.listElements_end rfl rfl
  | cons head rest ih =>
    rw [Wire.listElements_cell (oldListWire (head :: rest)) (oldListWire rest) rfl rfl rfl, ih]
    rfl

theorem exists_oldListWire (elements : List Json) : ∃ fields : Json.Fields Json,
    oldListWire elements = .obj fields ∧ fields.find? "Z1K1" = some (Wire.reference TypeId.oldList) := by
  cases elements with
  | nil => exact ⟨_, rfl, rfl⟩
  | cons head rest => exact ⟨_, rfl, rfl⟩

theorem decode_oldListWire (elements : List Json) : builtin.decode (oldListWire elements) =
    (do pure (.list (← elements.mapM builtin.decode))) := by
  obtain ⟨fields, hobj, hfield⟩ := exists_oldListWire elements
  have hlist := listElements_oldListWire elements
  rw [hobj] at hlist ⊢
  rw [decode_obj_of_type _ (some .list) hfield (Wire.typeId_reference _) rfl, objectValue, hlist]
  rfl

/-! ### Pairs and maps -/

theorem decode_pairWire {type first second : Json} (htype : Wire.typeId type = .ok TypeId.pair) :
    builtin.decode (pairWire type first second) = (do
      let a ← builtin.decode first
      let b ← builtin.decode second
      pure (.pair a b (some type))) := by
  rw [pairWire, decode_obj_of_type type (some .pair) rfl htype rfl]
  rfl

/-- The entries of a map come back one after another. -/
theorem foldlM_insertPair {pairType : Json} (htype : Wire.typeId pairType = .ok TypeId.pair)
    {wires : List (Json × Json)} {es : Value.Entries} (acc : Value.Entries)
    (hdecode : List.Forall₂ (fun w e => builtin.decode w.1 = .ok e.1 ∧
      builtin.decode w.2 = .ok e.2) wires es) :
    (wires.map fun (k, v) => pairWire pairType k v).foldlM
        (fun entries item => do insertPair entries (← builtin.decode item)) acc =
      .ok (es.foldl (fun acc e => Value.Entries.insert e.1 e.2 acc) acc) := by
  induction hdecode generalizing acc with
  | nil => rfl
  | @cons w e wires es hw _ ih =>
    have hitem : (do insertPair acc (← builtin.decode (pairWire pairType w.1 w.2))) =
        .ok (acc.insert e.1 e.2) := by
      rw [decode_pairWire htype, hw.1, hw.2]
      rfl
    rw [List.map_cons, List.foldlM_cons, hitem]
    exact ih _

/-- A map on the wire holds a list of pairs, which are inserted one after another. -/
theorem decode_mapWire_eq {type : Json} (htype : Wire.typeId type = .ok TypeId.map) (pairType : Json)
    (wires : List (Json × Json)) : builtin.decode (mapWire type pairType wires) = (do
      let entries ← (wires.map fun (k, v) => pairWire pairType k v).foldlM (fun entries item => do
        insertPair entries (← builtin.decode item)) []
      pure (.map entries)) := by
  rw [mapWire, decode_obj_of_type type (some .map) rfl htype rfl]
  show (do
    let items ← Wire.listElements (Wire.listWith _ (wires.map fun (k, v) => pairWire pairType k v))
    let entries ← items.foldlM (fun entries item => do
      insertPair entries (← builtin.decode item)) []
    pure (Value.map entries)) = _
  rw [Wire.listElements_listWith]
  rfl

theorem decode_mapWire_ofList {type pairType : Json} (htype : Wire.typeId type = .ok TypeId.map)
    (hpair : Wire.typeId pairType = .ok TypeId.pair) {wires : List (Json × Json)}
    {es : Value.Entries}
    (hdecode : List.Forall₂ (fun w e => builtin.decode w.1 = .ok e.1 ∧
      builtin.decode w.2 = .ok e.2) wires es) :
    builtin.decode (mapWire type pairType wires) = .ok (.map (Value.Entries.ofList es)) := by
  rw [decode_mapWire_eq htype, foldlM_insertPair hpair [] hdecode]
  rfl

/-- The entries of a map come back in order when the keys that they are decoded to differ. -/
theorem decode_mapWire {type pairType : Json} (htype : Wire.typeId type = .ok TypeId.map)
    (hpair : Wire.typeId pairType = .ok TypeId.pair) {wires : List (Json × Json)}
    {es : Value.Entries}
    (hdecode : List.Forall₂ (fun w e => builtin.decode w.1 = .ok e.1 ∧
      builtin.decode w.2 = .ok e.2) wires es)
    (hdiffer : es.KeysDiffer) :
    builtin.decode (mapWire type pairType wires) = .ok (.map es) := by
  rw [decode_mapWire_ofList htype hpair hdecode]
  exact congrArg (Except.ok ∘ Value.map) (Value.Entries.foldl_insert_of_keysDiffer hdiffer)

/-! ### Records -/

theorem decode_record {declared : Json} {id : String} {fields : List (String × Json)}
    (hid : Wire.typeId declared = .ok id) (hrule : builtin.decoders.find? id = none)
    (hno : ∀ f ∈ fields, f.1 ≠ "Z1K1") :
    builtin.decode (Json.object (("Z1K1", declared) :: fields)) = (do
      let values ← (Json.Fields.ofList fields).mapM fun f => do pure (f.1, ← builtin.decode f.2)
      pure (.record (some declared) values)) := by
  have htype := Json.Fields.find?_ofList_cons declared hno
  rw [Json.object, decode_obj_of_type declared none htype hid hrule, objectValue,
    Json.Fields.erase_ofList_cons declared hno, htype]

end Polyglot.Codec
