import Polyglot.Value.Display
import Polyglot.Wire.GenericType

/-!
# Codecs

A codec converts between wire values and native values. It holds a rule for each type that needs one
of its own, in either direction; objects of all other types are records. Further rules may be added,
and a later rule for a type takes the place of an earlier one.
-/

namespace Polyglot

/-- How a wire value of some type becomes a native value. -/
inductive DecodeRule where
  /-- The text of a string literal. -/
  | text
  /-- The target of a reference. -/
  | reference
  /-- The elements of a list. -/
  | list
  /-- The unit, whatever the object holds. -/
  | unit
  /-- A truth value. -/
  | boolean
  /-- A single character. -/
  | codePoint
  /-- The slots of a pair. -/
  | pair
  /-- The entries of a map. -/
  | map
  /-- Always the same value. -/
  | always (value : Value)
  /-- No value. -/
  | refuse (detail : String)
  /-- The value of one field. -/
  | within (key : String)

/-- How a native value becomes a wire value of some type. -/
inductive EncodeRule where
  /-- By the shape of the value. -/
  | inferred
  /-- A string literal. -/
  | text
  /-- A reference. -/
  | reference
  /-- A list of the old form. -/
  | oldList
  /-- The unit. -/
  | unit
  /-- The reference to a sentinel. -/
  | sentinel (id : String)
  /-- A truth value. -/
  | boolean
  /-- A single character. -/
  | codePoint
  /-- A typed list. -/
  | list
  /-- A typed pair. -/
  | pair
  /-- A typed map. -/
  | map
  /-- Always the same wire value. -/
  | always (wire : Json)
  /-- No wire value. -/
  | refuse (detail : String)
  /-- An object of the type asked for with the value, by its shape, in one field. -/
  | within (key : String)

/-- Rules for converting values in both directions, by type. -/
structure Codec where
  /-- The rules for types of wire values. -/
  decoders : Json.Fields DecodeRule
  /-- The rules for types asked for. -/
  encoders : Json.Fields EncodeRule

namespace Codec

/-- The codec with the rules for the types known by name. -/
def builtin : Codec where
  decoders := Json.Fields.ofList
    [(TypeId.string, .text), (TypeId.reference, .reference), (TypeId.oldList, .list),
      (TypeId.list, .list), (TypeId.unit, .unit), (TypeId.nothing, .unit), (TypeId.void, .unit),
      (TypeId.boolean, .boolean), (TypeId.codePoint, .codePoint), (TypeId.pair, .pair),
      (TypeId.map, .map)]
  encoders := Json.Fields.ofList
    [(TypeId.any, .inferred), (TypeId.string, .text), (TypeId.reference, .reference),
      (TypeId.oldList, .oldList), (TypeId.unit, .unit),
      (TypeId.nothing, .sentinel TypeId.nothing), (TypeId.void, .sentinel TypeId.void),
      (TypeId.boolean, .boolean), (TypeId.codePoint, .codePoint), (TypeId.list, .list),
      (TypeId.pair, .pair), (TypeId.map, .map)]

/-- Adds or replaces the rule for decoding a type. -/
def addDecoder (codec : Codec) (id : String) (rule : DecodeRule) : Codec :=
  { codec with decoders := codec.decoders.insert id rule }

/-- Adds or replaces the rule for encoding to a type. -/
def addEncoder (codec : Codec) (id : String) (rule : EncodeRule) : Codec :=
  { codec with encoders := codec.encoders.insert id rule }

/-- Whether there is a rule for decoding a type. -/
def hasDecoder (codec : Codec) (id : String) : Bool := (codec.decoders.find? id).isSome

/-- Whether there is a rule for encoding to a type. -/
def hasEncoder (codec : Codec) (id : String) : Bool := (codec.encoders.find? id).isSome

/-- Identifiers in quotes and brackets. -/
def showIds (ids : List String) : String :=
  "[" ++ Value.commaSeparated (ids.map Text.quoted) ++ "]"

/-- The types that a codec has rules for, as a message shows them. -/
def display (codec : Codec) : String :=
  "Codec \x7b decoders: " ++ showIds (codec.decoders.map (·.1)) ++
    ", encoders: " ++ showIds (codec.encoders.map (·.1)) ++ " \x7d"

end Codec

end Polyglot
