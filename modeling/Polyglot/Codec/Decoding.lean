import Polyglot.Codec.Basic
import Polyglot.Value.Entries

/-!
# From the wire to native values

The rule for decoding an object is chosen by its own type. Bare strings are references when they have
the shape of one and literals otherwise.
-/

namespace Polyglot.Codec

/-- The value of a reference: the truth values, void and nothing have values of their own. -/
def valueOfId (id : String) : Value :=
  if id = TypeId.true then .flag true
  else if id = TypeId.false then .flag false
  else if id = TypeId.nothing ∨ id = TypeId.void then .unit
  else .reference id

/-- The value of a bare string. -/
def bareValue (s : String) : Value := if TypeId.isToken s then valueOfId s else .text s

/-- A field that has to be there. -/
def requiredField (wire : Json) (key : String) : Except CodecError Json :=
  match wire.field? key with
  | some v => .ok v
  | none => .error (.decode (wire.render ++ " is missing " ++ key))

/-- A field that has to be there and to be a string. -/
def requiredText (wire : Json) (key : String) : Except CodecError String := do
  match (← requiredField wire key).str? with
  | some s => .ok s
  | none => .error (.decode wire.render)

/-- The text of a string literal, bare or as an object. -/
def decodeText : Json → Except CodecError Value
  | .str s => .ok (.text s)
  | wire => (requiredText wire "Z6K1").map .text

/-- The truth value that a boolean object names. -/
def decodeBoolean (wire : Json) : Except CodecError Value := do
  let id ← Wire.typeId (← requiredField wire "Z40K1")
  if id = TypeId.true then .ok (.flag true)
  else if id = TypeId.false then .ok (.flag false)
  else .error (.decode wire.render)

theorem sizeOf_lt_of_requiredField {wire v : Json} {key : String}
    (h : requiredField wire key = .ok v) : sizeOf v < sizeOf wire := by
  unfold requiredField at h
  split at h
  · cases h; exact Json.sizeOf_lt_of_field? ‹_›
  · cases h

/-- Adds to a map an entry that has to be a pair. -/
def insertPair (entries : Value.Entries) : Value → Except CodecError Value.Entries
  | .pair k v _ => .ok (entries.insert k v)
  | other => .error (.decode ("map entry " ++ other.display ++ " is not a pair"))

theorem sizeOf_lt_of_mem_erase {fields : Json.Fields Json} {key : String} {field : String × Json}
    (h : field ∈ fields.erase key) : sizeOf field.2 < sizeOf fields := by
  have := List.sizeOf_lt_of_mem (List.mem_filter.1 h).1
  obtain ⟨k, v⟩ := field
  simp at this ⊢; omega

/-- The native value of a wire value. -/
def decode (codec : Codec) (wire : Json) : Except CodecError Value :=
  match wire with
  | .str s => .ok (bareValue s)
  | .obj fields =>
    match Wire.typeOf (.obj fields) with
    | .error e => .error e
    | .ok id =>
      match codec.decoders.find? id with
      | none => do
        let values ← (Json.Fields.erase fields "Z1K1").attach.mapM fun ⟨(key, v), _⟩ => do
          pure (key, ← decode codec v)
        pure (.record (Json.Fields.find? fields "Z1K1") values)
      | some .text => decodeText (.obj fields)
      | some .reference => (requiredText (.obj fields) "Z9K1").map valueOfId
      | some .list =>
        match _h : Wire.listElements (.obj fields) with
        | .error e => .error e
        | .ok items => do
          let values ← items.attach.mapM fun ⟨item, _⟩ => decode codec item
          pure (.list values)
      | some .unit => .ok .unit
      | some .boolean => decodeBoolean (.obj fields)
      | some .codePoint => do decodeText (← requiredField (.obj fields) "Z86K1")
      | some .pair =>
        match _h : requiredField (.obj fields) "K1" with
        | .error e => .error e
        | .ok k1 => do
          let first ← decode codec k1
          match _h : requiredField (.obj fields) "K2" with
          | .error e => .error e
          | .ok k2 =>
            let second ← decode codec k2
            pure (.pair first second (Json.Fields.find? fields "Z1K1"))
      | some .map =>
        match _h : Json.Fields.find? fields "K1" with
        | none => .ok (.map [])
        | some pairs =>
          match _h : Wire.listElements pairs with
          | .error e => .error e
          | .ok items => do
            let entries ← items.attach.foldlM (fun entries ⟨item, _⟩ => do
              insertPair entries (← decode codec item)) []
            pure (.map entries)
      | some (.always v) => .ok v
      | some (.refuse detail) => .error (.decode detail)
      | some (.within key) =>
        match _h : Json.Fields.find? fields key with
        | none => .error (.decode ("no " ++ key))
        | some v => decode codec v
  | other => .error (.decode other.render)
termination_by sizeOf wire
decreasing_by
  · have := sizeOf_lt_of_mem_erase ‹_›; simp at this ⊢; omega
  · exact Wire.sizeOf_lt_of_mem_listElements _h _ ‹_›
  · exact sizeOf_lt_of_requiredField _h
  · exact sizeOf_lt_of_requiredField _h
  · have h1 := Wire.sizeOf_lt_of_mem_listElements _h _ ‹_›
    have h2 := Json.Fields.sizeOf_lt_of_find? ‹_›
    simp; omega
  · have := Json.Fields.sizeOf_lt_of_find? _h; simp; omega

end Polyglot.Codec
