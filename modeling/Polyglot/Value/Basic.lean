import Polyglot.Json.Basic

/-!
# Native values

The values that functions compute with. Pairs and records remember the type that they were decoded
with. Equality looks at the slots of a pair alone, but at the type and the fields of a record.
-/

namespace Polyglot

/-- A native value. -/
inductive Value where
  /-- A string or a single character. -/
  | text (s : String)
  /-- A reference to another object. -/
  | reference (id : String)
  /-- A truth value. -/
  | flag (b : Bool)
  /-- The unit, which also stands for void and nothing. -/
  | unit
  /-- A list. -/
  | list (items : List Value)
  /-- A pair, with the type that it was decoded with. -/
  | pair (first second : Value) (declared : Option Json)
  /-- A map, its entries in the order of their first insertion. -/
  | map (entries : List (Value × Value))
  /-- An object of any other type, field by field; the keys ascend. -/
  | record (declared : Option Json) (fields : List (String × Value))
  deriving Inhabited, Repr

namespace Value

/-- The name of a value's shape. -/
def kind : Value → String
  | text _ => "string"
  | reference _ => "reference"
  | flag _ => "boolean"
  | unit => "unit"
  | list _ => "list"
  | pair _ _ _ => "pair"
  | map _ => "map"
  | record _ _ => "record"

/-- The text of a string. -/
def text? : Value → Option String
  | text s => some s
  | _ => none

/-- Whether two declared types are equal. -/
def sameDeclared : Option Json → Option Json → Bool
  | none, none => true
  | some a, some b => a.same b
  | _, _ => false

mutual

/-- Whether two values are equal. -/
def same : Value → Value → Bool
  | text a, text b => a == b
  | reference a, reference b => a == b
  | flag a, flag b => a == b
  | unit, unit => true
  | list xs, list ys => sameItems xs ys
  | pair a b _, pair c d _ => same a c && same b d
  | map xs, map ys => sameEntries xs ys
  | record t xs, record u ys => sameDeclared t u && sameFields xs ys
  | _, _ => false

/-- Whether two lists have equal items. -/
def sameItems : List Value → List Value → Bool
  | [], [] => true
  | x :: xs, y :: ys => same x y && sameItems xs ys
  | _, _ => false

/-- Whether two maps have equal entries in the same order. -/
def sameEntries : List (Value × Value) → List (Value × Value) → Bool
  | [], [] => true
  | (k, x) :: xs, (l, y) :: ys => same k l && same x y && sameEntries xs ys
  | _, _ => false

/-- Whether two records have equal fields. -/
def sameFields : List (String × Value) → List (String × Value) → Bool
  | [], [] => true
  | (k, x) :: xs, (l, y) :: ys => k == l && same x y && sameFields xs ys
  | _, _ => false

end

end Value

end Polyglot
