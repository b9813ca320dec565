/-!
# Text from streams

What a stream carries is text as long as its octets are characters in UTF-8. An octet that is no
part of a character is kept as a gap, so that a reader can tell which lines are text.
`text?_ofString` says that a text comes through a stream unchanged.
-/

namespace Polyglot.Text

/-- Characters from a stream, with `none` for an octet that is no part of a character. -/
abbrev Raw := List (Option Char)

namespace Raw

/-- A text in a stream. -/
def ofString (s : String) : Raw := s.toList.map some

/-- The characters of a stream that carries nothing else. -/
def chars? (r : Raw) : Option (List Char) :=
  match r with
  | [] => some []
  | none :: _ => none
  | some c :: rest => (chars? rest).map (c :: ·)

/-- The text of a stream that carries nothing else. -/
def text? (r : Raw) : Option String := (chars? r).map String.ofList

theorem chars?_map_some (cs : List Char) : chars? (cs.map some) = some cs := by
  induction cs with
  | nil => rfl
  | cons c cs ih => simp [chars?, ih]

theorem text?_ofString (s : String) : text? (ofString s) = some s := by
  simp [text?, ofString, chars?_map_some]

/-- The number of octets of a character, or of a gap. -/
def octetsOf (c : Option Char) : Nat := (c.map Char.utf8Size).getD 1

/-- The number of octets. -/
def size (r : Raw) : Nat := r.foldl (fun n c => n + octetsOf c) 0

/-! ### Lines -/

/-- The first line with its newline, and what follows it. -/
def splitLine : Raw → Raw × Raw
  | [] => ([], [])
  | c :: rest =>
    if c = some '\n' then ([c], rest)
    else
      let (line, after) := splitLine rest
      (c :: line, after)

theorem splitLine_append (r : Raw) : (splitLine r).1 ++ (splitLine r).2 = r := by
  induction r with
  | nil => rfl
  | cons c rest ih => simp only [splitLine]; split <;> simp_all

theorem length_splitLine (c : Option Char) (r : Raw) : (splitLine (c :: r)).2.length ≤ r.length := by
  have h := congrArg List.length (splitLine_append r)
  simp only [splitLine]
  split
  · simp
  · simp only [List.length_append] at h ⊢; omega

/-- The lines, each with its newline, which the last one may lack. -/
def lines : Raw → List Raw
  | [] => []
  | c :: rest => (splitLine (c :: rest)).1 :: lines (splitLine (c :: rest)).2
termination_by r => r.length
decreasing_by have := length_splitLine c rest; simp; omega

/-- A line without its newline, and without the carriage return before it. -/
def withoutNewline (line : Raw) : Raw :=
  match line.reverse with
  | some '\n' :: some '\r' :: rest => rest.reverse
  | some '\n' :: rest => rest.reverse
  | _ => line

/-! ### Octets -/

/-- The six bits that an octet after the first adds to a character. -/
def continuation? (octet : Nat) : Option Nat :=
  if 0x80 ≤ octet ∧ octet ≤ 0xBF then some (octet - 0x80) else none

/-- The number that the bits of the octets after the first complete. -/
def complete? (start : Nat) (octets : List Nat) : Option Nat :=
  octets.foldl (fun acc octet => acc.bind fun n => (continuation? octet).map (n * 64 + ·))
    (some start)

/-- The character whose octets are a first one and the `count` octets after it; its code point is
not below `least`. -/
def character? (start count least : Nat) (rest : List Nat) : Option (Char × Nat) := do
  let octets := rest.take count
  if octets.length = count then
    let n ← complete? start octets
    if n < least then none
    else if h : n.isValidChar then some (Char.ofNatAux n h, count) else none
  else none

/-- The character that octets begin with, and how many octets after the first are its own. -/
def firstCharacter? (octet : Nat) (rest : List Nat) : Option (Char × Nat) :=
  if octet < 0x80 then some (Char.ofNat octet, 0)
  else if octet < 0xC0 then none
  else if octet < 0xE0 then character? (octet - 0xC0) 1 0x80 rest
  else if octet < 0xF0 then character? (octet - 0xE0) 2 0x800 rest
  else if octet < 0xF8 then character? (octet - 0xF0) 3 0x10000 rest
  else none

/-- The characters that octets are in UTF-8. -/
def ofOctets : List Nat → Raw
  | [] => []
  | octet :: rest =>
    match firstCharacter? octet rest with
    | some (c, count) => some c :: ofOctets (rest.drop count)
    | none => none :: ofOctets rest
termination_by octets => octets.length
decreasing_by
  · simp only [List.length_drop, List.length_cons]; omega
  · simp

end Raw

end Polyglot.Text
