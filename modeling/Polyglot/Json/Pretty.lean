import Polyglot.Json.Printer

/-!
# Indented JSON text

The text of a value with each item and each field on a line of its own, indented by two blanks for each
array or object around it. Empty arrays and objects stay on one line.
-/

namespace Polyglot.Json

/-- A line end and the blanks that the next line begins with. -/
def newLine (depth : Nat) : List Char := '\n' :: List.replicate (2 * depth) ' '

mutual

/-- The indented text of a value that has some arrays and objects around it. -/
def prettyChars (depth : Nat) : Json → List Char
  | arr [] => ['[', ']']
  | arr (x :: xs) =>
    '[' :: (newLine (depth + 1) ++ prettyChars (depth + 1) x ++ prettyItems depth xs)
  | obj [] => ['\x7b', '\x7d']
  | obj ((k, x) :: xs) =>
    '\x7b' :: (newLine (depth + 1) ++ stringChars k ++ [':', ' '] ++ prettyChars (depth + 1) x ++
      prettyFields depth xs)
  | null => toChars null
  | bool b => toChars (bool b)
  | num n => toChars (num n)
  | str s => toChars (str s)

/-- The text of the items after the first, and the bracket that closes them. -/
def prettyItems (depth : Nat) : List Json → List Char
  | [] => newLine depth ++ [']']
  | x :: xs => ',' :: (newLine (depth + 1) ++ prettyChars (depth + 1) x ++ prettyItems depth xs)

/-- The text of the fields after the first, and the brace that closes them. -/
def prettyFields (depth : Nat) : List (String × Json) → List Char
  | [] => newLine depth ++ ['\x7d']
  | (k, x) :: xs =>
    ',' :: (newLine (depth + 1) ++ stringChars k ++ [':', ' '] ++ prettyChars (depth + 1) x ++
      prettyFields depth xs)

end

/-- The indented text of a value. -/
def pretty (j : Json) : String := String.ofList (prettyChars 0 j)

end Polyglot.Json
