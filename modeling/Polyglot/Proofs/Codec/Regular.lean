import Polyglot.Proofs.Codec.Compositional
import Polyglot.Proofs.Codec.RoundTrip
import Polyglot.Proofs.Json.Reading
import Polyglot.Proofs.Value.Echo

/-!
# Values as decoding makes them

`Regular` says of a value what holds of decoded ones: a pair that declares the types of its slots
declares a type of pairs, and the fields of a record ascend and have other names than `Z1K1`.  Beyond
that it asks that descriptors declare each key once (`KeysOnce`), and that a record in a pair without
slot types declares its type in full: the slot types of such a pair are found in the slots, and a bare
identifier turns into a reference there.
-/

namespace Polyglot

theorem Json.compositional_legible : Json.Compositional Json.Legible where
  null := ⟨.null, rfl⟩
  str := Json.legible_str
  obj := Json.Legible.obj
  part h f hf := by
    obtain ⟨hwell, hread⟩ := h
    refine ⟨Json.compositional_wellFormed.part hwell hf, ?_⟩
    -- The numbers of a part are numbers of the object.
    rw [Json.reread?_eq_self_iff] at hread ⊢
    intro n hn
    refine hread n ?_
    rw [Json.numbers]
    clear hwell hread
    rename_i fields
    induction fields with
    | nil => cases hf
    | cons g fields ih =>
      rw [Json.numbersOfFields, List.mem_append]
      rcases List.mem_cons.mp hf with rfl | hf
      · exact .inl hn
      · exact .inr (ih hf)

namespace Codec

/-! ### Types asked for on the way -/

/-- The keys of the arguments of generic types. -/
def argumentKeys : List String := ["Z881K1", "Z882K1", "Z882K2", "Z883K1", "Z883K2"]

/-- The types that parts are encoded for when a value is encoded for a type: the arguments of the
type, the types of the keys that it declares, and those that these lead to. -/
inductive LeadsTo : Json → Json → Prop
  | self (type : Json) : LeadsTo type type
  | argument {type argument other : Json} {key : String} (hkey : key ∈ argumentKeys)
    (h : Wire.argumentOf? type key = some argument) (ho : LeadsTo argument other) :
    LeadsTo type other
  | key {type other : Json} {keys : List (String × Json)} {key : String × Json}
    (h : keysOfType? type = .ok (some keys)) (hkey : key ∈ keys) (ho : LeadsTo key.2 other) :
    LeadsTo type other

/-- Whether every descriptor on the way declares each of its keys once. -/
def KeysOnce (type : Json) : Prop :=
  ∀ other keys, LeadsTo type other → keysOfType? other = .ok (some keys) → (keys.map (·.1)).Nodup

theorem KeysOnce.argument {type argument : Json} (h : KeysOnce type) {key : String}
    (hkey : key ∈ argumentKeys) (harg : Wire.argumentOf? type key = some argument) :
    KeysOnce argument :=
  fun other keys ho => h other keys (.argument hkey harg ho)

theorem KeysOnce.key {type : Json} (h : KeysOnce type) {keys : List (String × Json)}
    (hkeys : keysOfType? type = .ok (some keys)) {key : String × Json} (hkey : key ∈ keys) :
    KeysOnce key.2 :=
  fun other keys ho => h other keys (.key hkeys hkey ho)

/-- A type that declares no keys leads to its arguments only. -/
theorem keysOnce_of_arguments {type : Json} (hkeys : keysOfType? type = .ok none)
    (h : ∀ key ∈ argumentKeys, ∀ argument, Wire.argumentOf? type key = some argument →
      KeysOnce argument) : KeysOnce type := by
  intro other keys ho hother
  cases ho with
  | self =>
    rw [hkeys] at hother
    cases hother
  | argument hkey harg ho => exact h _ hkey _ harg _ _ ho hother
  | key hdeclared =>
    rw [hkeys] at hdeclared
    cases hdeclared

theorem keysOnce_reference (id : String) : KeysOnce (Wire.reference id) := by
  have hid : Wire.idOfTag? (Wire.reference id) = some id := rfl
  refine keysOnce_of_arguments (keysOfType?_of_idOfTag? hid) fun key _ argument harg => ?_
  rw [Wire.reference, Wire.argumentOf?] at harg
  cases harg

theorem KeysOnce.referenceForm {type : Json} (h : KeysOnce type) :
    KeysOnce (Wire.referenceForm type) := by
  cases type with
  | str s => exact keysOnce_reference s
  | _ => exact h

/-- A call declares no keys. -/
theorem keysOfType?_call (fields : Json.Fields Json) :
    keysOfType? (.obj (("Z1K1", Wire.reference TypeId.call) :: fields)) = .ok none := rfl

/-- A call leads to its fields only. -/
theorem keysOnce_call {fields : Json.Fields Json} (h : ∀ f ∈ fields, KeysOnce f.2) :
    KeysOnce (.obj (("Z1K1", Wire.reference TypeId.call) :: fields)) := by
  refine keysOnce_of_arguments (keysOfType?_call _) fun key _ argument harg => ?_
  rw [Wire.argumentOf?_call] at harg
  rcases List.mem_cons.mp (Json.Fields.mem_of_find? harg) with htag | hfield
  · rw [(Prod.mk.inj htag).2]
    exact keysOnce_reference _
  · exact h _ hfield

theorem keysOnce_listOf {element : Json} (h : KeysOnce (Wire.referenceForm element)) :
    KeysOnce (Wire.listOf element) := by
  rw [Wire.listOf_eq]
  exact keysOnce_call (by simpa using ⟨keysOnce_reference _, h⟩)

theorem keysOnce_pairOf {first second : Json} (h1 : KeysOnce (Wire.referenceForm first))
    (h2 : KeysOnce (Wire.referenceForm second)) : KeysOnce (Wire.pairOf first second) := by
  rw [Wire.pairOf_eq]
  exact keysOnce_call (by simpa using ⟨keysOnce_reference _, h1, h2⟩)

theorem keysOnce_mapOf {key value : Json} (hk : KeysOnce (Wire.referenceForm key))
    (hv : KeysOnce (Wire.referenceForm value)) : KeysOnce (Wire.mapOf key value) := by
  rw [Wire.mapOf_eq]
  exact keysOnce_call (by simpa using ⟨keysOnce_reference _, hk, hv⟩)

/-! ### The types of slots -/

/-- The types of both slots, if a type of pairs names them. -/
def slotTypes? (type : Json) : Option (Json × Json) :=
  match Wire.argumentOf? type "Z882K1", Wire.argumentOf? type "Z882K2" with
  | some first, some second => some (first, second)
  | _, _ => none

theorem slotStep_of_some {type : Json} {types : Json × Json} (h : slotTypes? type = some types)
    (first second : Value) : slotStep first second type =
      .slots first second types.1 types.2 (pairWire type) := by
  rw [slotTypes?] at h
  split at h
  · rename_i h1 h2
    obtain rfl := Option.some.inj h
    rw [slotStep, h1, h2]
  · cases h

theorem slotStep_of_none {type : Json} (h : slotTypes? type = none) (first second : Value) :
    slotStep first second type =
      .slots first second (Wire.reference TypeId.any) (Wire.reference TypeId.any) inferredPair := by
  rw [slotTypes?] at h
  split at h
  · cases h
  · rename_i hno
    rw [slotStep]
    split
    · rename_i h1 h2
      exact absurd h2 (hno _ _ h1)
    · rfl

theorem slotTypes?_pairOf (first second : Json) : slotTypes? (Wire.pairOf first second) =
    some (Wire.referenceForm first, Wire.referenceForm second) := by
  rw [slotTypes?, Wire.argumentOf?_pairOf_first, Wire.argumentOf?_pairOf_second]

/-- A type that names slot types is written in full. -/
theorem referenceForm_of_slotTypes? {type : Json} {types : Json × Json}
    (h : slotTypes? type = some types) : Wire.referenceForm type = type := by
  cases type with
  | str s =>
    rw [slotTypes?, Wire.argumentOf?] at h
    · cases h
    · rintro _ ⟨⟩
  | _ => rfl

theorem KeysOnce.slots {type : Json} (h : KeysOnce type) {types : Json × Json}
    (hslots : slotTypes? type = some types) : KeysOnce types.1 ∧ KeysOnce types.2 := by
  rw [slotTypes?] at hslots
  split at hslots
  · rename_i h1 h2
    obtain rfl := Option.some.inj hslots
    exact ⟨h.argument (by decide) h1, h.argument (by decide) h2⟩
  · cases hslots

/-! ### Regular values -/

/-- Whether a value is as decoding makes values, descriptors declare each key once, and no record has
a bare type where it is `paired`: in a pair without slot types, not counting the parts of records and
of pairs with slot types. -/
inductive Regular : (paired : Bool) → Value → Prop
  | text (paired : Bool) (s : String) : Regular paired (.text s)
  | reference (paired : Bool) (id : String) : Regular paired (.reference id)
  | flag (paired : Bool) (b : Bool) : Regular paired (.flag b)
  | unit (paired : Bool) : Regular paired .unit
  | list {paired : Bool} {items : List Value} (h : ∀ v ∈ items, Regular paired v) :
    Regular paired (.list items)
  | map {paired : Bool} {entries : Value.Entries} (hk : ∀ e ∈ entries, Regular paired e.1)
    (hv : ∀ e ∈ entries, Regular paired e.2) : Regular paired (.map entries)
  | typed {paired : Bool} {first second : Value} {type : Json} {types : Json × Json}
    (htype : Wire.typeId type = .ok TypeId.pair) (hslots : slotTypes? type = some types)
    (honce : KeysOnce type) (h1 : Regular false first) (h2 : Regular false second) :
    Regular paired (.pair first second (some type))
  | pair {paired : Bool} {first second : Value} {declared : Option Json}
    (hslots : slotTypes? (declared.getD .null) = none)
    (h1 : Regular true first) (h2 : Regular true second)
    (hl1 : first.EveryDeclared Json.Legible) (hl2 : second.EveryDeclared Json.Legible) :
    Regular paired (.pair first second declared)
  | record {paired : Bool} {declared : Option Json} {fields : Json.Fields Value}
    (honce : ∀ type, declared = some type → KeysOnce type)
    (hbare : paired = true → ∀ id, declared ≠ some (.str id))
    (hk : fields.Ascending) (hno : ∀ f ∈ fields, f.1 ≠ "Z1K1")
    (h : ∀ f ∈ fields, Regular false f.2) : Regular paired (.record declared fields)

/-- An equal of a pair is what may come back for it if this holds of its slots. -/
theorem echoes_pair_of_same {first second : Value} {declared : Option Json}
    (h1 : ∀ decoded : Value, decoded.same first = true → decoded.echoes first = true)
    (h2 : ∀ decoded : Value, decoded.same second = true → decoded.echoes second = true)
    {decoded : Value} (hsame : decoded.same (.pair first second declared) = true) :
    decoded.echoes (.pair first second declared) = true := by
  cases decoded with
  | pair a b _ =>
    rw [Value.same, Bool.and_eq_true] at hsame
    rw [Value.echoes, h1 a hsame.1, h2 b hsame.2, Bool.and_self]
  | _ => simp [Value.same] at hsame

/-- An equal of a regular value is what may come back for it. -/
theorem Regular.echoes_of_same {paired : Bool} {value : Value} (h : Regular paired value) :
    ∀ decoded : Value, decoded.same value = true → decoded.echoes value = true := by
  induction h with
  | text paired s | reference paired id | flag paired b =>
    intro decoded hsame
    cases decoded <;> simp_all [Value.same, Value.echoes]
  | unit paired =>
    intro decoded hsame
    cases decoded <;> simp_all [Value.same, Value.echoes]
  | list _ ih =>
    intro decoded hsame
    cases decoded with
    | list xs =>
      rw [Value.same] at hsame
      rw [Value.echoes]
      exact Value.echoesItems_of_sameItems hsame ih
    | _ => simp [Value.same] at hsame
  | map _ _ ihk ihv =>
    intro decoded hsame
    cases decoded with
    | map es =>
      rw [Value.same] at hsame
      rw [Value.echoes]
      exact Value.echoesEntries_of_sameEntries hsame ihk ihv
    | _ => simp [Value.same] at hsame
  | typed _ _ _ _ _ ih1 ih2 => exact fun _ hsame => echoes_pair_of_same ih1 ih2 hsame
  | pair _ _ _ _ _ ih1 ih2 => exact fun _ hsame => echoes_pair_of_same ih1 ih2 hsame
  | record _ _ hk _ _ ih =>
    intro decoded hsame
    cases decoded with
    | record t xs =>
      rw [Value.same, Bool.and_eq_true] at hsame
      rw [Value.echoes]
      exact Value.echoesFields_of_sameFields hsame.2 hk ih
    | _ => simp [Value.same] at hsame

end Codec

end Polyglot
