import Polyglot.Text.Quoted
import Polyglot.Value.Basic

/-!
# Values in messages

How a message shows a value: strings quoted, lists in brackets, pairs in parentheses, maps in
braces, records in angle brackets, and parts separated by a comma and a space.
-/

namespace Polyglot.Value

/-- Texts with a comma and a space between them. -/
def commaSeparated (parts : List String) : String := String.intercalate ", " parts

mutual

/-- The text of a value. -/
def display : Value → String
  | text s => Text.quoted s
  | reference id => id
  | flag true => "true"
  | flag false => "false"
  | unit => "unit"
  | list items => "[" ++ commaSeparated (displayItems items) ++ "]"
  | pair a b _ => "(" ++ display a ++ ", " ++ display b ++ ")"
  | map entries => "\x7b" ++ commaSeparated (displayEntries entries) ++ "\x7d"
  | record _ fields => "<" ++ commaSeparated (displayFields fields) ++ ">"

/-- The texts of the items of a list. -/
def displayItems : List Value → List String
  | [] => []
  | x :: xs => display x :: displayItems xs

/-- The texts of the entries of a map. -/
def displayEntries : List (Value × Value) → List String
  | [] => []
  | (k, x) :: xs => (display k ++ ": " ++ display x) :: displayEntries xs

/-- The texts of the fields of a record. -/
def displayFields : List (String × Value) → List String
  | [] => []
  | (k, x) :: xs => (k ++ ": " ++ display x) :: displayFields xs

end

end Polyglot.Value
