import Polyglot.Fault
import Polyglot.Json.Reader
import Polyglot.Text.Blank
import Polyglot.Wire.GenericType

/-!
# Envelopes

Every evaluation is answered by an envelope. Its slot `Z22K1` holds the value, or void. Its slot
`Z22K2` holds an error, a map of metadata, or void; when metadata is attached to an envelope with an
error, the error becomes the first entry of the map, under `errors`.

A worker's output is accepted as an envelope only if it has either a value or an error, and not both.
-/

namespace Polyglot.Envelope

/-- The key of the metadata entry that holds an error. -/
def errorKey : String := "errors"

/-- The reference to void. -/
def void : Json := Wire.reference TypeId.void

/-- Whether a value is void, nothing or null. -/
def isVoid (value : Json) : Bool :=
  match value with
  | .null => true
  | _ => Wire.idOfTag? value = some TypeId.void ∨ Wire.idOfTag? value = some TypeId.nothing

/-- The envelope with the given slots, void where there is nothing. -/
def make (value slot : Option Json) : Json :=
  .obj [("Z1K1", Wire.reference TypeId.envelope), ("Z22K1", value.getD void),
    ("Z22K2", slot.getD void)]

/-- The error of a type with a message. -/
def makeError (code message : String) : Json :=
  .obj [("Z1K1", Wire.reference TypeId.error), ("Z5K1", Wire.reference code),
    ("Z5K2", Wire.text message)]

/-- The envelope of a fault. -/
def ofFault (fault : Fault) : Json := make none (some (makeError fault.code fault.message))

/-- Whether a value is tagged as an envelope and has both slots. -/
def isEnvelope (value : Json) : Bool :=
  (value.field? "Z1K1").bind Wire.idOfTag? = some TypeId.envelope &&
    (value.field? "Z22K1").isSome && (value.field? "Z22K2").isSome

/-- Whether a value is tagged as an error. -/
def isError (value : Json) : Bool :=
  (value.field? "Z1K1").bind Wire.idOfTag? = some TypeId.error

/-- Whether a value is tagged as a map. -/
def isMap (value : Json) : Bool :=
  match value.field? "Z1K1" with
  | some tag => (Wire.typeId tag).toOption = some TypeId.map
  | none => false

/-! ### Metadata -/

/-- The text of a string literal, bare or as an object. -/
def literalText? (literal : Json) : Option String :=
  ((literal.field? "Z6K1").bind Json.str?).or literal.str?

/-- The key of a metadata entry. -/
def entryKey? (entry : Json) : Option String := (entry.field? "K1").bind literalText?

/-- The key and the value of a metadata entry that has both. -/
def entryPair? (entry : Json) : Option (String × Json) := do
  let key ← entryKey? entry
  let value ← entry.field? "K2"
  pure (key, value)

/-- The entries of a metadata map that have both a key and a value. -/
def entries (map : Json) : List (String × Json) :=
  match map.field? "K1" with
  | none => []
  | some list =>
    match Wire.listElements list with
    | .ok items => items.filterMap entryPair?
    | .error _ => []

/-- The type of metadata entries. -/
def entryType : Json := Wire.pairOf (Wire.reference TypeId.string) (Wire.reference TypeId.any)

/-- The type of metadata maps. -/
def metadataType : Json := Wire.mapOf (Wire.reference TypeId.string) (Wire.reference TypeId.any)

/-- A metadata entry. -/
def makeEntry (key : String) (value : Json) : Json :=
  .obj [("K1", Wire.text key), ("K2", value), ("Z1K1", entryType)]

/-- The metadata map of entries. -/
def makeMap (entries : List (String × Json)) : Json :=
  .obj [("K1", Wire.listWith (Wire.listOf entryType) (entries.map fun (k, v) => makeEntry k v)),
    ("Z1K1", metadataType)]

/-- Puts a value under a key: in the place of the first entry of that key, or at the end. -/
def upsert (key : String) (value : Json) : List (String × Json) → List (String × Json)
  | [] => [(key, value)]
  | (k, v) :: rest => if k = key then (k, value) :: rest else (k, v) :: upsert key value rest

/-- The entries that a slot stands for: those of a map, or an error under `errors`. -/
def slotEntries (slot : Json) : List (String × Json) :=
  if isMap slot then entries slot else if isError slot then [(errorKey, slot)] else []

/-- The envelope with a metadata entry added or replaced. -/
def setMetadata (envelope : Json) (key : String) (value : Json) : Json :=
  match envelope with
  | .obj fields =>
    let slot := (Json.Fields.find? fields "Z22K2").getD void
    .obj (Json.Fields.insert "Z22K2" (makeMap (upsert key value (slotEntries slot))) fields)
  | other => other

/-- The value of the first metadata entry of a key. -/
def metadata? (envelope : Json) (key : String) : Option Json := do
  let slot ← envelope.field? "Z22K2"
  if isMap slot then
    let items ← (Wire.listElements (← slot.field? "K1")).toOption
    let entry ← items.find? fun entry => entryKey? entry = some key
    entry.field? "K2"
  else none

/-! ### Value and error -/

/-- The value of an envelope. -/
def value? (envelope : Json) : Option Json := (envelope.field? "Z22K1").filter (!isVoid ·)

/-- The error of an envelope, whether it is the slot itself or stands under `errors`. -/
def error? (envelope : Json) : Option Json := do
  let slot ← envelope.field? "Z22K2"
  if isError slot then some slot else (metadata? envelope errorKey).filter (!isVoid ·)

/-- The message of an envelope's error. -/
def errorMessage? (envelope : Json) : Option String := do
  literalText? (← (← error? envelope).field? "Z5K2")

/-- The type of an envelope's error. -/
def errorCode? (envelope : Json) : Option String := do
  (Wire.typeId (← (← error? envelope).field? "Z5K1")).toOption

/-! ### Worker output -/

/-- Whether a value is an envelope with either a value or an error. -/
def isAnswer (value : Json) : Bool :=
  isEnvelope value && (value? value).isSome != (error? value).isSome

/-- The fault of output that is no envelope. -/
def nonsense (output : String) : Fault :=
  .payload ("Executor returned some nonsense: " ++ output ++ ".")

/-- The envelope that a worker's output is. -/
def parse (output : String) : Except Fault Json :=
  let trimmed := Text.trim output
  if trimmed = "" then .error (.payload "Executor returned an empty response.")
  else
    match Json.read? trimmed with
    | some value => if isAnswer value then .ok value else .error (nonsense trimmed)
    | none => .error (nonsense trimmed)

end Polyglot.Envelope
