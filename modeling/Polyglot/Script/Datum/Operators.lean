import Polyglot.Script.Failure
import Polyglot.Text.Blank
import Polyglot.Text.Integer

/-!
# Operators and functions on data

The operators of scripts and the functions that every script has, apart from the one that asks for
the evaluation of another function. Integers have 64 bits, and a result that does not fit is an
error. Strings are sequences of code points.
-/

namespace Polyglot.Script.Datum

/-- An integer if it fits into 64 bits. -/
def checked (n : Int) : Except RuntimeError Datum :=
  if Text.minInt64 ≤ n ∧ n ≤ Text.maxInt64 then .ok (int n) else .error .overflow

/-- A string of one character. -/
def ofChar (c : Char) : Datum := text (String.singleton c)

/-! ### Operators -/

/-- The opposite of an integer. -/
def negate : Datum → Except RuntimeError Datum
  | int n => checked (-n)
  | other => .error (.notNegatable other.kind)

/-- The order of two integers or two strings. -/
def compare (a b : Datum) : Except RuntimeError Ordering :=
  match a, b with
  | int a, int b => .ok (Ord.compare a b)
  | text a, text b => .ok (Ord.compare a b)
  | a, b => .error (.notComparable a.kind b.kind)

/-- The sum of integers, the concatenation of lists, or that of texts if one operand is a string. -/
def add (a b : Datum) : Except RuntimeError Datum :=
  match a, b with
  | int a, int b => checked (a + b)
  | text a, b => .ok (text (a ++ b.toText))
  | a, text b => .ok (text (a.toText ++ b))
  | list a, list b => .ok (list (a ++ b))
  | a, b => .error (.badOperands .add a.kind b.kind)

/-- The result of an operation on two integers. -/
def arithmetic (op : BinaryOp) (f : Int → Int → Except RuntimeError Datum) (a b : Datum) :
    Except RuntimeError Datum :=
  match a, b with
  | int a, int b => f a b
  | a, b => .error (.badOperands op a.kind b.kind)

/-- The quotient, rounded toward zero. -/
def quotient (a b : Int) : Except RuntimeError Datum :=
  if b = 0 then .error .divisionByZero else checked (a.tdiv b)

/-- The remainder that goes with the quotient; there is none where the quotient does not fit. -/
def remainder (a b : Int) : Except RuntimeError Datum := do
  let _ ← quotient a b
  checked (a.tmod b)

/-- The value of an operator with two operands. -/
def binary (op : BinaryOp) (a b : Datum) : Except RuntimeError Datum :=
  match op with
  | .equal => .ok (bool (a.same b))
  | .notEqual => .ok (bool (!a.same b))
  | .add => add a b
  | .sub => arithmetic .sub (fun a b => checked (a - b)) a b
  | .mul => arithmetic .mul (fun a b => checked (a * b)) a b
  | .div => arithmetic .div quotient a b
  | .rem => arithmetic .rem remainder a b
  | .less => (compare a b).map fun o => bool o.isLT
  | .lessEqual => (compare a b).map fun o => bool o.isLE
  | .greater => (compare a b).map fun o => bool o.isGT
  | .greaterEqual => (compare a b).map fun o => bool o.isGE

/-! ### Elements -/

/-- The entries of a map as pairs. -/
def entryPairs (entries : List (Datum × Datum)) : List Datum :=
  entries.map fun (k, v) => pair k v none

/-- The elements that a loop visits: of a list, the characters of a string, the entries of a map. -/
def elements : Datum → Except RuntimeError (List Datum)
  | list items => .ok items
  | text s => .ok (s.toList.map ofChar)
  | map entries => .ok (entryPairs entries)
  | other => .error (.notIterable other.kind)

/-- The number of elements. -/
def length : Datum → Except RuntimeError Datum
  | list items => .ok (int items.length)
  | text s => .ok (int s.toList.length)
  | map entries => .ok (int entries.length)
  | other => .error (.noLength other.kind)

/-- The value of a property. -/
def member (target : Datum) (property : String) : Except RuntimeError Datum :=
  match target with
  | record _ fields => .ok ((Json.Fields.find? fields property).getD null)
  | list items =>
    if property = "length" then length (list items) else .error (.noProperty property "list")
  | text s =>
    if property = "length" then length (text s) else .error (.noProperty property "string")
  | map entries =>
    if property = "length" ∨ property = "size" then length (map entries)
    else .error (.noProperty property "map")
  | pair a b declared =>
    if property = "K1" then .ok a
    else if property = "K2" then .ok b
    else .error (.noProperty property (pair a b declared).kind)
  | other => .error (.noProperty property other.kind)

/-- The item at an index, or null when there is none. -/
def itemAt (items : List Datum) (i : Int) : Datum :=
  if i < 0 then null else (items[i.toNat]?).getD null

/-- The element at an index, or under a key, or null when there is none. -/
def index (target position : Datum) : Except RuntimeError Datum :=
  match target, position with
  | list items, int i => .ok (itemAt items i)
  | text s, int i => .ok (itemAt (s.toList.map ofChar) i)
  | map entries, key => .ok ((valueAt? key entries).getD null)
  | record _ fields, text field => .ok ((Json.Fields.find? fields field).getD null)
  | target, position => .error (.notIndexable target.kind position.kind)

/-! ### Texts -/

/-- The parts of a text between the occurrences of another that is not empty, found from the left
and without overlap. -/
def splitChars (separator : List Char) (cs : List Char) : List (List Char) :=
  match cs with
  | [] => [[]]
  | c :: rest =>
    if separator.isPrefixOf (c :: rest) then
      [] :: splitChars separator (rest.drop (separator.length - 1))
    else
      match splitChars separator rest with
      | [] => [[c]]
      | part :: parts => (c :: part) :: parts
termination_by cs.length
decreasing_by
  · simp only [List.length_drop, List.length_cons]; omega
  · simp

/-- The parts of a text between the occurrences of another; its characters if that is empty. -/
def splitText (s separator : String) : List Datum :=
  if separator = "" then s.toList.map ofChar
  else (splitChars separator.toList s.toList).map fun part => text (String.ofList part)

/-- The integer that a value stands for. -/
def toInt : Datum → Except RuntimeError Datum
  | int n => .ok (int n)
  | text s =>
    match Text.readInt Text.minInt64 Text.maxInt64 (Text.trimChars s.toList) with
    | some n => .ok (int n)
    | none => .error (.notAnInteger s)
  | bool b => .ok (int (if b then 1 else 0))
  | _ => .error (.badArguments .int "a string or integer")

/-- The map of a list of pairs, of which the last with a key counts. -/
def mapOfPairs (entries : List (Datum × Datum)) : List Datum → Except RuntimeError Datum
  | [] => .ok (map entries)
  | pair k v _ :: rest => mapOfPairs (insertEntry k v entries) rest
  | other :: _ => .error (.notAPair other.kind)

/-- The value of a function that every script has. The one that asks for the evaluation of another
function has none here. -/
def apply (builtin : Builtin) (arguments : List Datum) : Except RuntimeError Datum :=
  match builtin, arguments with
  | .pair, [a, b] => .ok (pair a b none)
  | .pair, _ => .error (.arity .pair 2 arguments.length)
  | .ref, [text id] => refer id
  | .ref, [reference id] => refer id
  | .ref, _ => .error (.badArguments .ref "one non-empty string")
  | .len, [a] => length a
  | .len, _ => .error (.arity .len 1 arguments.length)
  | .str, [a] => .ok (text a.toText)
  | .str, _ => .error (.arity .str 1 arguments.length)
  | .int, [a] => toInt a
  | .int, _ => .error (.badArguments .int "a string or integer")
  | .toMap, [list items] => mapOfPairs [] items
  | .toMap, _ => .error (.badArguments .toMap "a list of pairs")
  | .entries, [map entries] => .ok (list (entryPairs entries))
  | .entries, _ => .error (.badArguments .entries "a map")
  | .keys, [map entries] => .ok (list (entries.map (·.1)))
  | .keys, [record _ fields] => .ok (list (fields.map fun (k, _) => text k))
  | .keys, _ => .error (.badArguments .keys "a map or record")
  | .get, [map entries, key] => .ok ((valueAt? key entries).getD null)
  | .get, [map entries, key, default] => .ok ((valueAt? key entries).getD default)
  | .get, _ => .error (.badArguments .get "a map, a key and an optional default")
  | .split, [text s, text separator] => .ok (list (splitText s separator))
  | .split, _ => .error (.badArguments .split "two strings")
  | .join, [list items, text separator] =>
    .ok (text (String.intercalate separator (itemTexts items)))
  | .join, _ => .error (.badArguments .join "a list and a string")
  | .call, _ => .error (.badArguments .call "a function id as its first argument")
where
  /-- The reference to an identifier that is not empty. -/
  refer (id : String) : Except RuntimeError Datum :=
    if id = "" then .error (.badArguments .ref "one non-empty string") else .ok (reference id)

end Polyglot.Script.Datum
