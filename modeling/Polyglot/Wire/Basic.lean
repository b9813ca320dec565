import Polyglot.Json.Printer
import Polyglot.Wire.TypeId

/-!
# Objects on the wire

An object on the wire is a JSON value whose field `Z1K1` holds its type. This module builds
references and string literals, and reads the identifier that a type or a function denotes in any of
the forms that it may be written in.
-/

namespace Polyglot

/-- Why a value could not be converted. -/
inductive CodecError where
  /-- A wire value has no native form. -/
  | decode (detail : String)
  /-- A native value has no wire form of the type asked for. -/
  | encode (detail : String)
  /-- No type could be read from a wire value. -/
  | unknownType (detail : String)
  deriving DecidableEq, Repr

/-- The text of a conversion error. -/
def CodecError.message : CodecError → String
  | .decode detail => "Could not deserialize input ZObject: " ++ detail
  | .encode detail => "Could not serialize input value: " ++ detail
  | .unknownType detail => "Could not determine type for " ++ detail

namespace Wire

/-- The reference to an identifier. -/
def reference (id : String) : Json := .obj [("Z1K1", .str TypeId.reference), ("Z9K1", .str id)]

/-- The literal of a text. -/
def text (s : String) : Json := .obj [("Z1K1", .str TypeId.string), ("Z6K1", .str s)]

/-- The identifier of a tag that is written bare or as a reference. -/
def idOfTag? : Json → Option String
  | .str s => some s
  | .obj fields =>
    if (Json.Fields.find? fields "Z1K1").bind Json.str? = some TypeId.reference then
      (Json.Fields.find? fields "Z9K1").bind Json.str?
    else none
  | _ => none

/-- The field that leads on to the identifier of a type written by an object with the given tag. -/
def nextTypeField? (tag : String) : Option String :=
  if tag = TypeId.call then some "Z7K1"
  else if tag = TypeId.type then some "Z4K1"
  else if tag = TypeId.function then some "Z8K5"
  else none

/-- The identifier that a type or a function denotes: a bare identifier is one already, a reference
yields its target, and calls, descriptors and functions are followed to what they instantiate. -/
def typeId (value : Json) : Except CodecError String :=
  match value with
  | .str s => .ok s
  | .obj fields =>
    match (Json.Fields.find? fields "Z1K1").bind idOfTag? with
    | none => .error (.unknownType value.render)
    | some tag =>
      if tag = TypeId.reference then
        match (Json.Fields.find? fields "Z9K1").bind Json.str? with
        | some id => .ok id
        | none => .error (.unknownType value.render)
      else
        match nextTypeField? tag with
        | none => .error (.unknownType value.render)
        | some key =>
          match _h : Json.Fields.find? fields key with
          | none => .error (.unknownType value.render)
          | some next => typeId next
  | _ => .error (.unknownType value.render)
termination_by sizeOf value
decreasing_by
  have := Json.Fields.sizeOf_lt_of_find? _h
  simp; omega

/-- The identifier of the type of a wire value. -/
def typeOf (wire : Json) : Except CodecError String :=
  match wire.field? "Z1K1" with
  | some tag => typeId tag
  | none => .error (.unknownType wire.render)

/-- A type with a bare identifier turned into a reference. -/
def referenceForm : Json → Json
  | .str s => reference s
  | other => other

/-- A text that two types share exactly when they are written alike, bare identifiers counting as
references. -/
def typeKey (type : Json) : String := (referenceForm type).render

/-- Whether a type is the one that every object has. -/
def isAny (type : Json) : Bool := idOfTag? type = some TypeId.any

/-- The argument of a generic type that is written as a call or as a descriptor. -/
def argumentOf? (type : Json) (key : String) : Option Json :=
  match type with
  | .obj fields =>
    match (Json.Fields.find? fields "Z1K1").bind idOfTag? with
    | none => none
    | some tag =>
      if tag = TypeId.call then Json.Fields.find? fields key
      else if tag = TypeId.type then
        match _h : Json.Fields.find? fields "Z4K1" with
        | some call => argumentOf? call key
        | none => none
      else none
  | _ => none
termination_by sizeOf type
decreasing_by
  have := Json.Fields.sizeOf_lt_of_find? _h
  simp; omega

end Wire

end Polyglot
