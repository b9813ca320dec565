import Polyglot.Codec.Basic
import Polyglot.Value.Entries

/-!
# From native values to the wire

The rule for encoding is chosen by the type asked for. Against the type of all objects the shape of
the value chooses the type: the elements of a list, and the keys and values of a map, have the one
type that they share, or else that of all objects.

A rule may hand a value on to the rule of another type, as it does for a record, which knows its own
type. There are only two types that a value is handed on to, that of all objects and its own, so one
that has been handed on three times without being taken apart is handed on for ever. The outcome
`endless` stands for that.
-/

namespace Polyglot.Codec

/-- Why encoding yields no wire value. -/
inductive EncodeFailure where
  /-- It ends with an error. -/
  | error (cause : CodecError)
  /-- It does not end. -/
  | endless
  deriving DecidableEq, Repr

/-- The error that a value does not fit a type. -/
def misfit {α : Type} (value : Value) (id : String) : Except EncodeFailure α :=
  .error (.error (.encode
    (value.display ++ " (" ++ value.kind ++ " does not fit type " ++ id ++ ")")))

/-! ### Wire forms -/

/-- The unit object. -/
def unitWire : Json := .obj [("Z1K1", Wire.reference TypeId.unit)]

/-- The boolean object of a truth value. -/
def booleanWire (b : Bool) : Json :=
  .obj [("Z1K1", Wire.reference TypeId.boolean),
    ("Z40K1", Wire.reference (if b then TypeId.true else TypeId.false))]

/-- The object of a single character. -/
def codePointWire (s : String) : Json :=
  .obj [("Z1K1", Wire.reference TypeId.codePoint), ("Z86K1", Wire.text s)]

/-- The object of a pair. -/
def pairWire (type first second : Json) : Json :=
  .obj [("K1", first), ("K2", second), ("Z1K1", type)]

/-- The object of a map. -/
def mapWire (type pairType : Json) (entries : List (Json × Json)) : Json :=
  .obj [("K1", Wire.listWith (Wire.listOf pairType)
      (entries.map fun (k, v) => pairWire pairType k v)),
    ("Z1K1", type)]

/-- The list of the old form. -/
def oldListWire (elements : List Json) : Json :=
  elements.foldr
    (fun head tail =>
      .obj [("Z10K1", head), ("Z10K2", tail), ("Z1K1", Wire.reference TypeId.oldList)])
    (.obj [("Z1K1", Wire.reference TypeId.oldList)])

/-! ### Types found in wire values -/

/-- The type tag of a wire value. -/
def tagOf (wire : Json) : Json := (wire.field? "Z1K1").getD .null

/-- The type that tags share, or the type of all objects when they differ or there are none. -/
def sharedType (tags : List Json) : Json :=
  match tags with
  | [] => Wire.reference TypeId.any
  | tag :: rest =>
    if rest.all fun other => Wire.typeKey other == Wire.typeKey tag then Wire.referenceForm tag
    else Wire.reference TypeId.any

/-- The wire form of a list whose element type is found in its elements. -/
def inferredList (elements : List Json) : Json :=
  Wire.listWith (Wire.listOf (sharedType (elements.map tagOf))) elements

/-- The wire form of a pair whose slot types are found in its slots. -/
def inferredPair (first second : Json) : Json :=
  pairWire (Wire.pairOf (tagOf first) (tagOf second)) first second

/-- The wire form of a map whose key and value types are found in its entries. -/
def inferredMap (entries : List (Json × Json)) : Json :=
  let keyType := sharedType (entries.map fun (k, _) => tagOf k)
  let valueType := sharedType (entries.map fun (_, v) => tagOf v)
  mapWire (Wire.mapOf keyType valueType) (Wire.pairOf keyType valueType) entries

/-! ### Declared keys -/

/-- The name and the type that a key declaration holds. -/
def keyOfDeclaration (declaration : Json) : Except CodecError (String × Json) := do
  let name ← match declaration.field? "Z3K2" with
    | some (.str s) => pure s
    | some literal =>
      match (literal.field? "Z6K1").bind Json.str? with
      | some s => pure s
      | none => .error (.encode ("bad key label " ++ literal.render))
    | none => .error (.encode ("bad key declaration " ++ declaration.render))
  match declaration.field? "Z3K1" with
  | some type => pure (name, type)
  | none => .error (.encode ("bad key declaration " ++ declaration.render))

/-- The keys that a descriptor declares; none if the type is no descriptor or declares none. -/
def keysOfType? (type : Json) : Except CodecError (Option (List (String × Json))) :=
  if (type.field? "Z1K1").bind Wire.idOfTag? ≠ some TypeId.type then .ok none
  else
    match type.field? "Z4K2" with
    | none => .ok none
    | some declarations => do
      let items ← Wire.listElements declarations
      let keys ← items.mapM keyOfDeclaration
      pure (some keys)

/-! ### One step -/

/-- What the rule for a type asks for: parts of the value to be encoded, and the wire value to be
built from them. -/
inductive Step where
  /-- Nothing more. -/
  | done (result : Except EncodeFailure Json)
  /-- The same value for another type. -/
  | handOn (type : Json) (finish : Json → Json)
  /-- Values for one type. -/
  | items (values : List Value) (type : Json) (finish : List Json → Json)
  /-- Two values for a type each. -/
  | slots (first second : Value) (firstType secondType : Json) (finish : Json → Json → Json)
  /-- Keys and values for a type each. -/
  | entries (entries : Value.Entries) (keyType valueType : Json)
      (finish : List (Json × Json) → Json)
  /-- Named values, unless missing, for a type each. -/
  | fields (fields : List (String × Except EncodeFailure Value × Json))
      (finish : List (String × Json) → Json)

/-- The outcome of a step that ends with an error about the value. -/
def Step.fail (detail : String) : Step := .done (.error (.error (.encode detail)))

/-- The step for a value that does not fit a type. -/
def Step.misfit (value : Value) (id : String) : Step := .done (Codec.misfit value id)

/-- A pair by the types of its slots, which are found in them if they are not given. -/
def slotStep (first second : Value) (type : Json) : Step :=
  match Wire.argumentOf? type "Z882K1", Wire.argumentOf? type "Z882K2" with
  | some firstType, some secondType => .slots first second firstType secondType (pairWire type)
  | _, _ =>
    .slots first second (Wire.reference TypeId.any) (Wire.reference TypeId.any) inferredPair

/-- The step for a value by its shape. A pair keeps the type that it was decoded with when this
names the types of both slots. -/
def inferredStep : Value → Step
  | .text s => .done (.ok (Wire.text s))
  | .reference target => .done (.ok (Wire.reference target))
  | .flag b => .done (.ok (booleanWire b))
  | .unit => .done (.ok unitWire)
  | .list items => .items items (Wire.reference TypeId.any) inferredList
  | .pair first second declared => slotStep first second (declared.getD .null)
  | .map entries =>
    .entries entries (Wire.reference TypeId.any) (Wire.reference TypeId.any) inferredMap
  | .record declared fields =>
    match declared.filter (!Wire.isAny ·) with
    | some type => .handOn type id
    | none =>
      .fail ((Value.record declared fields).display ++ " (record without a declared type)")

/-- The step for a type without a rule: a record, with the keys that the type declares if it is a
descriptor and with all of its own otherwise. -/
def recordStep (value : Value) (type : Json) (id : String) : Step :=
  match value with
  | .record declared fields =>
    let finish := fun values => Json.object (("Z1K1", type) :: values)
    match keysOfType? type with
    | .error e => .done (.error (.error e))
    | .ok (some keys) =>
      .fields
        (keys.map fun (name, keyType) =>
          (name,
            match Json.Fields.find? fields name with
            | some v => .ok v
            | none => .error (.error (.encode ((Value.record declared fields).display ++
                " (missing declared key " ++ name ++ ")"))),
            keyType))
        finish
    | .ok none =>
      .fields (fields.map fun (name, v) => (name, .ok v, Wire.reference TypeId.any)) finish
  | _ => .misfit value id

/-- The step of a rule for a value and the type asked for. -/
def ruleStep (value : Value) (type : Json) : EncodeRule → Step
  | .inferred => inferredStep value
  | .text =>
    match value with
    | .text s => .done (.ok (Wire.text s))
    | _ => .misfit value TypeId.string
  | .reference =>
    match value with
    | .reference target => .done (.ok (Wire.reference target))
    | .text s =>
      if TypeId.isToken s then .done (.ok (Wire.reference s))
      else .misfit value TypeId.reference
    | _ => .misfit value TypeId.reference
  | .oldList =>
    match value with
    | .list items => .items items (Wire.reference TypeId.any) oldListWire
    | _ => .misfit value TypeId.oldList
  | .unit =>
    match value with
    | .unit => .done (.ok unitWire)
    | _ => .misfit value TypeId.unit
  | .sentinel target =>
    match value with
    | .unit => .done (.ok (Wire.reference target))
    | _ => .misfit value target
  | .boolean =>
    match value with
    | .flag b => .done (.ok (booleanWire b))
    | _ => .misfit value TypeId.boolean
  | .codePoint =>
    match value with
    | .text s =>
      if s.toList.length = 1 then .done (.ok (codePointWire s))
      else .misfit value TypeId.codePoint
    | _ => .misfit value TypeId.codePoint
  | .list =>
    match value with
    | .list items =>
      match Wire.argumentOf? type "Z881K1" with
      | some elementType => .items items elementType (Wire.listWith type)
      | none => .items items (Wire.reference TypeId.any) inferredList
    | _ => .misfit value TypeId.list
  | .pair =>
    match value with
    | .pair first second _ => slotStep first second type
    | _ => .misfit value TypeId.pair
  | .map =>
    match value with
    | .map entries =>
      match Wire.argumentOf? type "Z883K1", Wire.argumentOf? type "Z883K2" with
      | some keyType, some valueType =>
        .entries entries keyType valueType (mapWire type (Wire.pairOf keyType valueType))
      | _, _ =>
        .entries entries (Wire.reference TypeId.any) (Wire.reference TypeId.any) inferredMap
    | _ => .misfit value TypeId.map
  | .always wire => .done (.ok wire)
  | .refuse detail => .fail detail
  | .within key =>
    .handOn (Wire.reference TypeId.any) fun inner => Json.object [("Z1K1", type), (key, inner)]

/-- The step that a codec takes for a value and the type asked for. -/
def step (codec : Codec) (value : Value) (type : Json) : Step :=
  match Wire.typeId type with
  | .error _ => .fail value.display
  | .ok id =>
    match codec.encoders.find? id with
    | some rule => ruleStep value type rule
    | none => recordStep value type id

/-! ### The parts of a step are smaller than the value -/

/-- Whether all parts that a step takes from a value are smaller than the given size. -/
def Step.Below (size : Nat) : Step → Prop
  | .done _ => True
  | .handOn _ _ => True
  | .items values _ _ => ∀ v ∈ values, sizeOf v < size
  | .slots first second _ _ _ => sizeOf first < size ∧ sizeOf second < size
  | .entries es _ _ _ => ∀ e ∈ es, sizeOf e.1 < size ∧ sizeOf e.2 < size
  | .fields fs _ => ∀ f ∈ fs, ∀ v, f.2.1 = .ok v → sizeOf v < size

theorem slotStep_below (first second : Value) (type : Json) {size : Nat}
    (h1 : sizeOf first < size) (h2 : sizeOf second < size) :
    (slotStep first second type).Below size := by
  unfold slotStep; split <;> exact ⟨h1, h2⟩

theorem entries_below {entries : Value.Entries} :
    ∀ e ∈ entries, sizeOf e.1 < sizeOf (Value.map entries) ∧
      sizeOf e.2 < sizeOf (Value.map entries) := by
  intro e he
  have := List.sizeOf_lt_of_mem he
  obtain ⟨k, v⟩ := e
  simp at this ⊢; omega

theorem items_below {items : List Value} :
    ∀ v ∈ items, sizeOf v < sizeOf (Value.list items) := by
  intro v hv
  have := List.sizeOf_lt_of_mem hv
  simp; omega

theorem inferredStep_below (value : Value) : (inferredStep value).Below (sizeOf value) := by
  cases value with
  | list items => exact items_below
  | pair first second declared => exact slotStep_below _ _ _ (by simp; omega) (by simp; omega)
  | map entries => exact entries_below
  | record declared fields => simp only [inferredStep]; split <;> trivial
  | _ => trivial

theorem recordStep_below (value : Value) (type : Json) (id : String) :
    (recordStep value type id).Below (sizeOf value) := by
  cases value with
  | record declared fields =>
    simp only [recordStep]
    split
    · trivial
    · intro f hf v hv
      obtain ⟨k, _, rfl⟩ := List.mem_map.1 hf
      simp only at hv
      split at hv
      · cases hv
        have := Json.Fields.sizeOf_lt_of_find? ‹_›
        simp; omega
      · cases hv
    · intro f hf v hv
      obtain ⟨k, hk, rfl⟩ := List.mem_map.1 hf
      cases hv
      have := List.sizeOf_lt_of_mem hk
      obtain ⟨k, v⟩ := k
      simp at this ⊢; omega
  | _ => trivial

theorem ruleStep_below (value : Value) (type : Json) (rule : EncodeRule) :
    (ruleStep value type rule).Below (sizeOf value) := by
  cases rule with
  | inferred => exact inferredStep_below value
  | oldList => cases value <;> first | exact items_below | trivial
  | list =>
    cases value <;> first | trivial | (simp only [ruleStep]; split <;> exact items_below)
  | pair =>
    cases value <;> first
      | trivial
      | exact slotStep_below _ _ _ (by simp; omega) (by simp; omega)
  | map =>
    cases value <;> first | trivial | (simp only [ruleStep]; split <;> exact entries_below)
  | reference =>
    cases value <;> first | trivial | (simp only [ruleStep]; split <;> trivial)
  | codePoint =>
    cases value <;> first | trivial | (simp only [ruleStep]; split <;> trivial)
  | _ => cases value <;> trivial

theorem step_below (codec : Codec) (value : Value) (type : Json) :
    (codec.step value type).Below (sizeOf value) := by
  unfold step
  split
  · trivial
  · split
    · exact ruleStep_below _ _ _
    · exact recordStep_below _ _ _

/-! ### Encoding -/

/-- How often a value may be handed on to the rule of another type before it is sure that this does
not end. -/
def maxHops : Nat := 2

/-- The wire form of a value for the type asked for, when the value may still be handed on the given
number of times. -/
def encodeHop (codec : Codec) (hops : Nat) (value : Value) (type : Json) :
    Except EncodeFailure Json :=
  match _h : codec.step value type with
  | .done result => result
  | .handOn other finish =>
    match hops with
    | 0 => .error .endless
    | hops + 1 => (encodeHop codec hops value other).map finish
  | .items values itemType finish => do
    let encoded ← values.attach.mapM fun ⟨v, _⟩ => encodeHop codec maxHops v itemType
    pure (finish encoded)
  | .slots first second firstType secondType finish => do
    let k1 ← encodeHop codec maxHops first firstType
    let k2 ← encodeHop codec maxHops second secondType
    pure (finish k1 k2)
  | .entries entries keyType valueType finish => do
    let encoded ← entries.attach.mapM fun ⟨(k, v), _⟩ => do
      let k ← encodeHop codec maxHops k keyType
      let v ← encodeHop codec maxHops v valueType
      pure (k, v)
    pure (finish encoded)
  | .fields fields finish => do
    let encoded ← fields.attach.mapM fun ⟨(name, part, partType), _⟩ =>
      match _h : part with
      | .error failure => .error failure
      | .ok v => do pure (name, ← encodeHop codec maxHops v partType)
    pure (finish encoded)
termination_by (sizeOf value, hops)
decreasing_by
  all_goals have hb := codec.step_below value type
  all_goals rw [‹codec.step value type = _›] at hb
  · right; omega
  · left; exact hb v ‹_›
  · left; exact hb.1
  · left; exact hb.2
  · left; exact (hb _ ‹_›).1
  · left; exact (hb _ ‹_›).2
  · left; exact hb _ ‹_› v (by simp_all)

/-- The wire form of a value for the type asked for. -/
def encode (codec : Codec) (value : Value) (type : Json) : Except EncodeFailure Json :=
  encodeHop codec maxHops value type

/-- The wire form of a value by its shape. -/
def encodeAny (codec : Codec) (value : Value) : Except EncodeFailure Json :=
  encode codec value (Wire.reference TypeId.any)

end Polyglot.Codec
