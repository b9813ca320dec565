import Polyglot.Shell.Expansion

/-!
# Formatted output of shell commands

The escapes and conversions of `echo` and `printf`.
-/

namespace Polyglot.Shell.Format

open Polyglot.Text (Raw)

/-- The characters of octets in octal digits and of other text; octets in a row are read together, so
that a character may be written by several. -/
inductive Piece where
  /-- A character. -/
  | char (c : Option Char)
  /-- An octet. -/
  | octet (n : Nat)

/-- The text of pieces. -/
def assemble (pieces : List Piece) : Raw :=
  let (octets, text) := pieces.foldr (fun piece (octets, text) =>
    match piece with
    | .octet n => (n :: octets, text)
    | .char c => ([], c :: (Raw.ofOctets octets ++ text))) (([] : List Nat), ([] : Raw))
  Raw.ofOctets octets ++ text

/-- The number of octal digits. -/
def octal (cs : List Char) : Nat := cs.foldl (fun n c => n * 8 + (c.toNat - '0'.toNat)) 0

/-- Whether a character is an octal digit. -/
def isOctal (c : Char) : Bool := '0' ≤ c && c ≤ '7'

/-- The leading octal digits of a text, at most so many. -/
def octalDigits (count : Nat) (r : Raw) : List Char :=
  ((r.take count).takeWhile fun c => c.any isOctal).filterMap id

/-- The character that a letter stands for after a backslash. -/
def escapeOf? (c : Char) : Option Char :=
  match c with
  | 'a' => some '\x07'
  | 'b' => some '\x08'
  | 'e' => some '\x1b'
  | 'f' => some '\x0c'
  | 'n' => some '\n'
  | 'r' => some '\r'
  | 't' => some '\t'
  | 'v' => some '\x0b'
  | '\\' => some '\\'
  | _ => none

/-- The piece that a backslash begins, from what follows it, and how much of that it takes. There may
be three octal digits, and a zero before them unless `bare` is set. -/
def escape (bare : Bool) (r : Raw) : Piece × Nat :=
  match r with
  | some c :: rest =>
    match escapeOf? c with
    | some d => (.char (some d), 1)
    | none =>
      if c = '0' && !bare then
        (.octet (octal (octalDigits 3 rest) % 256), 1 + (octalDigits 3 rest).length)
      else if isOctal c then
        (.octet (octal (octalDigits 3 r) % 256), (octalDigits 3 r).length)
      else (.char (some '\\'), 0)
  | _ => (.char (some '\\'), 0)

/-- The text that a text with escapes stands for, and whether it is cut short by `\c`. -/
def unescape : (fuel : Nat) → Raw → List Piece × Bool
  | 0, _ => ([], false)
  | fuel + 1, r =>
    match r with
    | [] => ([], false)
    | some '\\' :: some 'c' :: _ => ([], true)
    | some '\\' :: rest =>
      let (piece, count) := escape false rest
      let (more, cut) := unescape fuel (rest.drop count)
      (piece :: more, cut)
    | c :: rest =>
      let (more, cut) := unescape fuel rest
      (.char c :: more, cut)

/-- What `echo` writes. -/
def echo (arguments : List Raw) : Raw :=
  let (arguments, newline) := match arguments with
    | [some '-', some 'n'] :: rest => (rest, false)
    | all => (all, true)
  let text := joinWith [some ' '] arguments
  let (pieces, cut) := unescape (text.length + 1) text
  assemble pieces ++ if newline && !cut then [some '\n'] else []

/-! ### Conversions -/

/-- A conversion of `printf`. -/
structure Conversion where
  /-- Whether the text stands at the left of its field. -/
  left : Bool
  /-- Whether the field is filled with zeros. -/
  zeros : Bool
  /-- What is written before a number that is not negative. -/
  sign : List Char
  /-- Whether the base of a number is shown. -/
  marked : Bool
  /-- The least width. -/
  width : Nat
  /-- The number of characters or digits. -/
  precision : Option Nat
  /-- What is written. -/
  letter : Char

/-- The number that decimal digits write. -/
def number (cs : List Char) : Nat := (Text.readDigits cs).getD 0

/-- The conversion after a percent sign, and what follows it. -/
def conversion? (cs : Raw) : Option (Conversion × Raw) := do
  let plain := cs.map fun c => c.getD '\x00'
  let flags := plain.takeWhile fun c => ['-', '0', '+', ' ', '#'].contains c
  let afterFlags := plain.drop flags.length
  let width := afterFlags.takeWhile Char.isDigit
  let afterWidth := afterFlags.drop width.length
  let (precision, used) := match afterWidth with
    | '.' :: rest => (some (number (rest.takeWhile Char.isDigit)), 1 + (rest.takeWhile Char.isDigit).length)
    | _ => (none, 0)
  let letter ← (afterWidth.drop used).head?
  let sign := if flags.contains '+' then ['+'] else if flags.contains ' ' then [' '] else []
  pure (⟨flags.contains '-', flags.contains '0', sign, flags.contains '#', number width, precision,
    letter⟩, cs.drop (flags.length + width.length + used + 1))

/-- The number of octets of a piece. -/
def Piece.size : Piece → Nat
  | .char c => Raw.octetsOf c
  | .octet _ => 1

/-- A text in its field, whose width is counted in octets. -/
def inField (c : Conversion) (text : List Piece) : List Piece :=
  let fill := List.replicate (c.width - text.foldl (fun n piece => n + piece.size) 0) (Piece.char (some ' '))
  if c.left then text ++ fill else fill ++ text

/-- Text as pieces. -/
def piecesOf (r : Raw) : List Piece := r.map Piece.char

/-- An integer in its field. -/
def inNumberField (c : Conversion) (n : Int) (digits : List Char) : List Piece :=
  let digits := List.replicate (c.precision.getD 1 - digits.length) '0' ++ digits
  let sign := if n < 0 then ['-'] else c.sign
  let zeros := if c.zeros && !c.left && c.precision.isNone then
    List.replicate (c.width - (digits.length + sign.length)) '0' else []
  inField c (piecesOf ((sign ++ zeros ++ digits).map some))

/-- The integer that an argument writes; a character after a quote stands for its number. -/
def integer (r : Raw) : Int :=
  match r with
  | some '\'' :: some c :: _ => c.toNat
  | some '"' :: some c :: _ => c.toNat
  | r =>
    match r.chars? with
    | some ('-' :: ds) => -((Arithmetic.numeral? ds).getD 0)
    | some ('+' :: ds) => (Arithmetic.numeral? ds).getD 0
    | some ds => (Arithmetic.numeral? ds).getD 0
    | none => 0

/-- A conversion that writes a mark before a number if the base is to be shown. -/
def Conversion.marking (c : Conversion) (mark : List Char) : Conversion :=
  { c with sign := if c.marked then mark else [] }

/-- What a conversion makes of an argument. -/
def convert (c : Conversion) (argument : Raw) : List Piece × Bool :=
  let n := integer argument
  let unsigned := Arithmetic.bits n
  match c.letter with
  | 's' => (inField c (piecesOf (argument.take (c.precision.getD argument.length))), false)
  | 'b' =>
    let (pieces, cut) := unescape (argument.length + 1) argument
    (inField c (pieces.take (c.precision.getD pieces.length)), cut)
  | 'c' => (inField c (piecesOf (argument.take 1)), false)
  | 'd' => (inNumberField c n (Nat.toDigits 10 n.natAbs), false)
  | 'i' => (inNumberField c n (Nat.toDigits 10 n.natAbs), false)
  | 'u' => (inNumberField { c with sign := [] } 0 (Nat.toDigits 10 unsigned), false)
  | 'o' => (inNumberField (c.marking ['0']) 0 (Nat.toDigits 8 unsigned), false)
  | 'x' => (inNumberField (c.marking ['0', 'x']) 0 (Nat.toDigits 16 unsigned), false)
  | 'X' =>
    (inNumberField (c.marking ['0', 'X']) 0 ((Nat.toDigits 16 unsigned).map Char.toUpper), false)
  | _ => ([], false)

/-- What is made of a format once: the pieces, the arguments that are left, and whether output is cut
short. -/
def once : (fuel : Nat) → Raw → List Raw → List Piece × List Raw × Bool
  | 0, _, arguments => ([], arguments, false)
  | fuel + 1, format, arguments =>
    match format with
    | [] => ([], arguments, false)
    | some '\\' :: rest =>
      let (piece, count) := escape true rest
      let (more, left) := once fuel (rest.drop count) arguments
      (piece :: more, left)
    | some '%' :: some '%' :: rest =>
      let (more, left) := once fuel rest arguments
      (.char (some '%') :: more, left)
    | some '%' :: rest =>
      match conversion? rest with
      | none => ([], arguments, true)
      | some (c, rest) =>
        let (pieces, cut) := convert c (arguments.headD [])
        if cut then (pieces, [], true)
        else
          let (more, left) := once fuel rest (arguments.drop 1)
          (pieces ++ more, left)
    | c :: rest =>
      let (more, left) := once fuel rest arguments
      (.char c :: more, left)

/-- What is made of a format that is used again as long as there are arguments. -/
def again (format : Raw) : (fuel : Nat) → List Raw → List Piece
  | 0, _ => []
  | fuel + 1, arguments =>
    let (pieces, left, cut) := once (format.length + 1) format arguments
    if cut || left.isEmpty || left.length = arguments.length then pieces
    else pieces ++ again format fuel left

/-- What `printf` writes. -/
def printf (format : Raw) (arguments : List Raw) : Raw :=
  assemble (again format (arguments.length + 1) arguments)

end Polyglot.Shell.Format
