import Polyglot.Text.Raw

/-!
# Shell patterns

Patterns with `*`, `?` and bracketed sets, and the removal of what they match at the ends of a text.
-/

namespace Polyglot.Shell

/-- One element of a pattern. -/
inductive Glob where
  /-- A character that stands for itself. -/
  | one (c : Option Char)
  /-- Any character. -/
  | any
  /-- Any text. -/
  | many
  /-- A character in one of the ranges, or in none of them. -/
  | set (negated : Bool) (ranges : List (Char × Char))

namespace Glob

/-- The ranges of a set. -/
def ranges : List Char → List (Char × Char)
  | a :: '-' :: b :: rest => (a, b) :: ranges rest
  | c :: rest => (c, c) :: ranges rest
  | [] => []

/-- The set that characters in brackets stand for. -/
def ofBrackets (cs : List Char) : Glob :=
  match cs with
  | '!' :: rest => set true (ranges rest)
  | rest => set false (ranges rest)

/-- The characters up to the bracket that closes a set, and how many there are. -/
def brackets? (cs : List (Char × Bool)) : Option (List Char) :=
  match cs with
  | [] => none
  | first :: rest =>
    if rest.any fun c => c.1 = ']' then
      some (first.1 :: (rest.takeWhile fun c => c.1 ≠ ']').map (·.1))
    else none

/-- The pattern of characters, each quoted or not; a quoted one stands for itself. -/
def ofChars : List (Char × Bool) → List Glob
  | [] => []
  | (c, quoted) :: rest =>
    if quoted then one c :: ofChars rest
    else if c = '*' then many :: ofChars rest
    else if c = '?' then any :: ofChars rest
    else if c = '[' then
      match brackets? rest with
      | some cs => ofBrackets cs :: ofChars (rest.drop (cs.length + 1))
      | none => one c :: ofChars rest
    else one c :: ofChars rest
termination_by cs => cs.length
decreasing_by
  all_goals simp only [List.length_drop, List.length_cons]; omega

/-- Whether a pattern matches the whole of a text. -/
def matchesText : List Glob → Text.Raw → Bool
  | [], text => text.isEmpty
  | one c :: ps, d :: rest => c == d && matchesText ps rest
  | any :: ps, _ :: rest => matchesText ps rest
  | set negated rs :: ps, some d :: rest => matchesSet negated rs d && matchesText ps rest
  | many :: ps, text => (List.range (text.length + 1)).any fun n => matchesText ps (text.drop n)
  | _, _ => false
where
  /-- Whether a character is in a set. -/
  matchesSet (negated : Bool) (rs : List (Char × Char)) (d : Char) : Bool :=
    (rs.any fun (a, b) => a ≤ d && d ≤ b) != negated

/-- The text without the shortest or the longest start that a pattern matches. -/
def dropStart (longest : Bool) (p : List Glob) (text : Text.Raw) : Text.Raw :=
  let counts := List.range (text.length + 1)
  let counts := if longest then counts.reverse else counts
  match counts.find? fun n => matchesText p (text.take n) with
  | some n => text.drop n
  | none => text

/-- The text without the shortest or the longest end that a pattern matches. -/
def dropEnd (longest : Bool) (p : List Glob) (text : Text.Raw) : Text.Raw :=
  let counts := List.range (text.length + 1)
  let counts := if longest then counts else counts.reverse
  match counts.find? fun n => matchesText p (text.drop n) with
  | some n => text.take n
  | none => text

end Glob

end Polyglot.Shell
