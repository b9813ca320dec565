import Polyglot.Script.Tree
import Polyglot.Value.Basic

/-!
# Data of scripts

The values as a script sees them: native values, and the integers and functions that never leave it.
A function value is a declaration together with the scope it was made in; each time that a
declaration is evaluated makes a function of its own, which is equal to no other.
-/

namespace Polyglot.Script

/-- A function that every script has. -/
inductive Builtin where
  /-- Makes a pair. -/
  | pair
  /-- Makes a reference. -/
  | ref
  /-- Counts the elements. -/
  | len
  /-- Turns a value into text. -/
  | str
  /-- Turns a value into an integer. -/
  | int
  /-- Turns a list of pairs into a map. -/
  | toMap
  /-- Lists the entries of a map. -/
  | entries
  /-- Lists the keys of a map or a record. -/
  | keys
  /-- Looks up a key. -/
  | get
  /-- Cuts a text at each occurrence of another. -/
  | split
  /-- Puts texts together with another between them. -/
  | join
  /-- Asks for the evaluation of another function. -/
  | call
  deriving DecidableEq, Repr

namespace Builtin

/-- All functions that every script has. -/
def all : List Builtin :=
  [pair, ref, len, str, int, toMap, entries, keys, get, split, join, call]

/-- The name of a function. -/
def name : Builtin → String
  | pair => "pair"
  | ref => "ref"
  | len => "len"
  | str => "str"
  | int => "int"
  | toMap => "toMap"
  | entries => "entries"
  | keys => "keys"
  | get => "get"
  | split => "split"
  | join => "join"
  | call => "call"

end Builtin

/-- The number of a scope. -/
abbrev ScopeId := Nat

/-- A function value. -/
structure Closure where
  /-- Tells this function from all others. -/
  id : Nat
  /-- What was declared. -/
  function : Function
  /-- The scope of the declaration. -/
  scope : ScopeId

/-- A value as a script sees it. -/
inductive Datum where
  /-- The null value. -/
  | null
  /-- A truth value. -/
  | bool (value : Bool)
  /-- An integer of 64 bits. -/
  | int (value : Int)
  /-- A string. -/
  | text (value : String)
  /-- A reference. -/
  | reference (id : String)
  /-- A list. -/
  | list (items : List Datum)
  /-- A pair, with the type that it was decoded with. -/
  | pair (first second : Datum) (declared : Option Json)
  /-- A map. -/
  | map (entries : List (Datum × Datum))
  /-- A record, with the type that it was decoded with; the keys ascend. -/
  | record (declared : Option Json) (fields : List (String × Datum))
  /-- A function of the script. -/
  | closure (closure : Closure)
  /-- A function that every script has. -/
  | builtin (builtin : Builtin)

instance : Inhabited Datum := ⟨.null⟩

namespace Datum

/-- The name of a value's kind. -/
def kind : Datum → String
  | null => "null"
  | bool _ => "boolean"
  | int _ => "integer"
  | text _ => "string"
  | reference _ => "reference"
  | list _ => "list"
  | pair _ _ _ => "pair"
  | map _ => "map"
  | record _ _ => "record"
  | closure _ => "function"
  | builtin _ => "function"

/-- Whether a value counts as true in a condition. -/
def isTruthy : Datum → Bool
  | null => false
  | bool b => b
  | int n => n != 0
  | text s => s != ""
  | _ => true

mutual

/-- Whether two values are equal. -/
def same : Datum → Datum → Bool
  | null, null => true
  | bool a, bool b => a == b
  | int a, int b => a == b
  | text a, text b => a == b
  | reference a, reference b => a == b
  | list xs, list ys => sameItems xs ys
  | pair a b _, pair c d _ => same a c && same b d
  | map xs, map ys => sameEntries xs ys
  | record t xs, record u ys => Value.sameDeclared t u && sameFields xs ys
  | closure a, closure b => a.id == b.id
  | builtin a, builtin b => a == b
  | _, _ => false

/-- Whether two lists have equal items. -/
def sameItems : List Datum → List Datum → Bool
  | [], [] => true
  | x :: xs, y :: ys => same x y && sameItems xs ys
  | _, _ => false

/-- Whether two maps have equal entries in the same order. -/
def sameEntries : List (Datum × Datum) → List (Datum × Datum) → Bool
  | [], [] => true
  | (k, x) :: xs, (l, y) :: ys => same k l && same x y && sameEntries xs ys
  | _, _ => false

/-- Whether two records have equal fields. -/
def sameFields : List (String × Datum) → List (String × Datum) → Bool
  | [], [] => true
  | (k, x) :: xs, (l, y) :: ys => k == l && same x y && sameFields xs ys
  | _, _ => false

end

/-- The decimal form of an integer. -/
def intText (n : Int) : String := String.ofList (Json.Number.intChars n)

mutual

/-- The text of a value, as `str` and concatenation give it. -/
def toText : Datum → String
  | null => "null"
  | bool true => "true"
  | bool false => "false"
  | int n => intText n
  | text s => s
  | reference id => id
  | list items => String.intercalate "," (itemTexts items)
  | pair a b _ => "(" ++ toText a ++ ", " ++ toText b ++ ")"
  | map entries => "\x7b" ++ String.intercalate ", " (entryTexts entries) ++ "\x7d"
  | record _ fields => "<" ++ String.intercalate ", " (fieldTexts fields) ++ ">"
  | closure c => "function " ++ c.function.name
  | builtin b => "function " ++ b.name

/-- The texts of the items of a list. -/
def itemTexts : List Datum → List String
  | [] => []
  | x :: xs => toText x :: itemTexts xs

/-- The texts of the entries of a map. -/
def entryTexts : List (Datum × Datum) → List String
  | [] => []
  | (k, x) :: xs => (toText k ++ ": " ++ toText x) :: entryTexts xs

/-- The texts of the fields of a record. -/
def fieldTexts : List (String × Datum) → List String
  | [] => []
  | (k, x) :: xs => (k ++ ": " ++ toText x) :: fieldTexts xs

end

/-! ### Maps -/

/-- Puts a value under a key: in the place of the first equal key, or at the end. -/
def insertEntry (key value : Datum) : List (Datum × Datum) → List (Datum × Datum)
  | [] => [(key, value)]
  | (k, v) :: rest =>
    if k.same key then (k, value) :: rest else (k, v) :: insertEntry key value rest

/-- The value under the first key equal to the given one. -/
def valueAt? (key : Datum) : List (Datum × Datum) → Option Datum
  | [] => none
  | (k, v) :: rest => if k.same key then some v else valueAt? key rest

end Datum

end Polyglot.Script
