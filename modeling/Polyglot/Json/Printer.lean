import Polyglot.Json.Basic

/-!
# Compact JSON text

The text of a value without any space: keys in order, characters as they are but for the quote, the
backslash and the controls below U+0020.
-/

namespace Polyglot.Json

/-- The two lower case hexadecimal digits of a number below 256. -/
def hexPair (n : Nat) : List Char := [Nat.digitChar (n / 16 % 16), Nat.digitChar (n % 16)]

/-- A character as it stands in a string. -/
def escapeChar (c : Char) : List Char :=
  if c = '"' then ['\\', '"']
  else if c = '\\' then ['\\', '\\']
  else if c = '\x08' then ['\\', 'b']
  else if c = '\x0c' then ['\\', 'f']
  else if c = '\n' then ['\\', 'n']
  else if c = '\r' then ['\\', 'r']
  else if c = '\t' then ['\\', 't']
  else if c.toNat < 0x20 then ['\\', 'u', '0', '0'] ++ hexPair c.toNat
  else [c]

/-- A string between quotes. -/
def stringChars (s : String) : List Char := '"' :: s.toList.flatMap escapeChar ++ ['"']

mutual

/-- The text of a value. -/
def toChars : Json → List Char
  | null => ['n', 'u', 'l', 'l']
  | bool true => ['t', 'r', 'u', 'e']
  | bool false => ['f', 'a', 'l', 's', 'e']
  | num n => n.toChars
  | str s => stringChars s
  | arr [] => ['[', ']']
  | arr (x :: xs) => '[' :: (toChars x ++ itemChars xs)
  | obj [] => ['\x7b', '\x7d']
  | obj ((k, x) :: xs) => '\x7b' :: (stringChars k ++ ':' :: (toChars x ++ fieldChars xs))

/-- The text of the items after the first, and the bracket that closes them. -/
def itemChars : List Json → List Char
  | [] => [']']
  | x :: xs => ',' :: (toChars x ++ itemChars xs)

/-- The text of the fields after the first, and the brace that closes them. -/
def fieldChars : List (String × Json) → List Char
  | [] => ['\x7d']
  | (k, x) :: xs => ',' :: (stringChars k ++ ':' :: (toChars x ++ fieldChars xs))

end

/-- The compact text of a value. -/
def render (j : Json) : String := String.ofList j.toChars

end Polyglot.Json
