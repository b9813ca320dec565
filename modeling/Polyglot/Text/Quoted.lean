import Polyglot.Text.Extending
import Polyglot.Text.Unprintable

/-!
# Quoted text for diagnostics

A text or a character as a message shows it: between quotes, with a backslash before the quote and
the backslash, short names for the usual controls, and the code point in braces for a character
that has no visible form or that would be drawn over its neighbour.
-/

namespace Polyglot.Text

/-- The digits of a code point in lower case hexadecimal. -/
def hexDigits (n : Nat) : List Char := Nat.toDigits 16 n

/-- The code point of a character between braces, after `\u`. -/
def codePointEscape (c : Char) : List Char :=
  ['\\', 'u', '\x7b'] ++ hexDigits c.toNat ++ ['\x7d']

/-- Whether a character is shown by its code point. -/
def isHidden (c : Char) : Bool :=
  if c.toNat < 0x7F then c.toNat < 0x20 else extending.contains c || unprintable.contains c

/-- A character as it stands between the given quotes. -/
def quotedChar (quote c : Char) : List Char :=
  if c = '\x00' then ['\\', '0']
  else if c = '\t' then ['\\', 't']
  else if c = '\r' then ['\\', 'r']
  else if c = '\n' then ['\\', 'n']
  else if c = '\\' then ['\\', '\\']
  else if c = quote then ['\\', quote]
  else if isHidden c then codePointEscape c
  else [c]

/-- A text between double quotes, as a message shows it. -/
def quoted (s : String) : String :=
  String.ofList ('"' :: s.toList.flatMap (quotedChar '"') ++ ['"'])

/-- A character between single quotes, as a message shows it. -/
def quotedSingle (c : Char) : String :=
  String.ofList ('\'' :: quotedChar '\'' c ++ ['\''])

end Polyglot.Text
