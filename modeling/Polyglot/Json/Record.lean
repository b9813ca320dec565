import Polyglot.Json.Reader

/-!
# Records in JSON text

A record with fields of fixed names is written as an object, or as an array of its fields in order,
of which the last ones may be left out. In an object no field of the record may be repeated, and
fields that the record does not have are passed over, whatever they hold.
-/

namespace Polyglot.Json.Draft

/-- The fields that are there of a record with the given names. -/
def record? (names : List String) : Draft → Option (List (String × Draft))
  | arr items => if items.length ≤ names.length then some (names.zip items) else none
  | obj fields => do
    let fields ← fields.mapM fun field => field.1.map fun key => (key, field.2)
    let known := fields.filter fun field => names.contains field.1
    if (known.map (·.1)).Nodup then some known else none
  | _ => none

/-- The text that a draft is. -/
def text? : Draft → Option String
  | str s => s
  | _ => none

/-- The natural number of 64 bits that a draft is. -/
def nat64? : Draft → Option Nat
  | num (some (.int n)) => if 0 ≤ n ∧ n ≤ Text.maxNat64 then some n.toNat else none
  | _ => none

/-- The value of a field that may be left out or null. -/
def optional? {α : Type} (value? : Draft → Option α) : Option Draft → Option (Option α)
  | none => some none
  | some null => some none
  | some part => (value? part).map some

/-- The value of a field that has a default. -/
def defaulted? {α : Type} (default : α) (value? : Draft → Option α) : Option Draft → Option α
  | none => some default
  | some part => value? part

/-- The items of an array, each read alike. -/
def items? {α : Type} (value? : Draft → Option α) : Draft → Option (List α)
  | arr items => items.mapM value?
  | _ => none

/-- The fields of an object, each read alike; of two with one key the last is kept. -/
def fields? {α : Type} (value? : Draft → Option α) : Draft → Option (Fields α)
  | obj fields =>
    (fields.mapM fun (field : Option String × Draft) => do
      let key ← field.1
      let value ← value? field.2
      pure (key, value)).map Fields.ofList
  | _ => none

end Polyglot.Json.Draft
