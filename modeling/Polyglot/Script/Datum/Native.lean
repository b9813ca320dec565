import Polyglot.Script.Datum
import Polyglot.Value.Entries
import Polyglot.Wire.Basic

/-!
# Native values in scripts

Every native value has a form in scripts, and every value of a script has a native form, except
integers and functions and what contains them.
-/

namespace Polyglot.Script.Datum

mutual

/-- The form of a native value in scripts. -/
def ofValue : Value → Datum
  | .text s => text s
  | .reference id => reference id
  | .flag b => bool b
  | .unit => null
  | .list items => list (ofItems items)
  | .pair a b declared => pair (ofValue a) (ofValue b) declared
  | .map entries => map (ofEntries entries)
  | .record declared fields => record declared (ofFields fields)

/-- The forms of the items of a list. -/
def ofItems : List Value → List Datum
  | [] => []
  | x :: xs => ofValue x :: ofItems xs

/-- The forms of the entries of a map. -/
def ofEntries : List (Value × Value) → List (Datum × Datum)
  | [] => []
  | (k, x) :: xs => (ofValue k, ofValue x) :: ofEntries xs

/-- The forms of the fields of a record. -/
def ofFields : List (String × Value) → List (String × Datum)
  | [] => []
  | (k, x) :: xs => (k, ofValue x) :: ofFields xs

end

mutual

/-- The native form of a value of a script. Entries of a map whose keys have equal native forms
become one. -/
def toValue : Datum → Except CodecError Value
  | null => .ok .unit
  | bool b => .ok (.flag b)
  | text s => .ok (.text s)
  | reference id => .ok (.reference id)
  | list items => do pure (.list (← toItems items))
  | pair a b declared => do
    let a ← toValue a
    let b ← toValue b
    pure (.pair a b declared)
  | map entries => do pure (.map (Value.Entries.ofList (← toEntries entries)))
  | record declared fields => do pure (.record declared (← toFields fields))
  | int n => .error (.encode (intText n ++ " (integers have no wire form; use str())"))
  | closure c => .error (.encode (closure c).toText)
  | builtin b => .error (.encode (builtin b).toText)

/-- The native forms of the items of a list. -/
def toItems : List Datum → Except CodecError (List Value)
  | [] => .ok []
  | x :: xs => do
    let x ← toValue x
    let xs ← toItems xs
    pure (x :: xs)

/-- The native forms of the entries of a map. -/
def toEntries : List (Datum × Datum) → Except CodecError (List (Value × Value))
  | [] => .ok []
  | (k, x) :: xs => do
    let k ← toValue k
    let x ← toValue x
    let xs ← toEntries xs
    pure ((k, x) :: xs)

/-- The native forms of the fields of a record. -/
def toFields : List (String × Datum) → Except CodecError (List (String × Value))
  | [] => .ok []
  | (k, x) :: xs => do
    let x ← toValue x
    let xs ← toFields xs
    pure ((k, x) :: xs)

end

end Polyglot.Script.Datum
