import Polyglot.Value.Basic

/-!
# Entries of a map

A map is a list of entries in the order in which their keys first came. Inserting under a key that
is there already replaces the value and keeps the place.
-/

namespace Polyglot.Value

/-- The keys and values of a map, in the order of first insertion. -/
abbrev Entries := List (Value × Value)

namespace Entries

/-- Puts a value under a key: in the place of the first equal key, or at the end. -/
def insert (key value : Value) : Entries → Entries
  | [] => [(key, value)]
  | (k, v) :: rest => if k.same key then (k, value) :: rest else (k, v) :: insert key value rest

/-- The value under the first key equal to the given one. -/
def find? (key : Value) : Entries → Option Value
  | [] => none
  | (k, v) :: rest => if k.same key then some v else find? key rest

/-- The entries inserted one after another. -/
def ofList (entries : List (Value × Value)) : Entries :=
  entries.foldl (fun acc (k, v) => acc.insert k v) []

/-- The keys in order. -/
def keys (entries : Entries) : List Value := entries.map (·.1)

end Entries

end Polyglot.Value
