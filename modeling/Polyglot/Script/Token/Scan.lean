import Polyglot.Script.Token
import Polyglot.Text.Alphabetic
import Polyglot.Text.Blank
import Polyglot.Text.Integer
import Polyglot.Text.Numeric

/-!
# From text to tokens

`tokenize` cuts a text into tokens. Between tokens there may be blanks and comments, to the end of
the line or between `/*` and `*/`. A token is the longest one that the text begins with there.

The ends of lines between tokens are counted; one that stands in a string behind a backslash is not.
-/

namespace Polyglot.Script

/-! ### Classes of characters -/

/-- Whether a character has the Unicode property Alphabetic. -/
def isLetter (c : Char) : Bool := if c.toNat < 0x80 then c.isAlpha else Text.alphabetic.contains c

/-- Whether a character is alphabetic or numeric. -/
def isLetterOrNumber (c : Char) : Bool :=
  if c.toNat < 0x80 then c.isAlphanum else Text.alphabetic.contains c || Text.numeric.contains c

/-- Whether a character may begin a name. -/
def beginsName (c : Char) : Bool := isLetter c || c == '_' || c == '$'

/-- Whether a character may stand in a name. -/
def continuesName (c : Char) : Bool := isLetterOrNumber c || c == '_' || c == '$'

/-! ### Strings -/

/-- The character whose code point is written by hexadecimal digits, perhaps after a plus sign. -/
def escapedCodePoint? (cs : List Char) : Option Char := do
  let n ← match cs with
    | '+' :: digits => Text.readHexDigits digits
    | digits => Text.readHexDigits digits
  if n.isValidChar then some (Char.ofNat n) else none

/-- The character that an escape stands for, and what follows it. The code point after `\u` takes
the next four characters, or all that are left. -/
def scanEscape : List Char → Except Mistake (Char × List Char)
  | [] => .error .unterminatedEscape
  | c :: rest =>
    if c = 'n' then .ok ('\n', rest)
    else if c = 't' then .ok ('\t', rest)
    else if c = 'r' then .ok ('\r', rest)
    else if c = '0' then .ok ('\x00', rest)
    else if c = 'u' then
      match escapedCodePoint? (rest.take 4) with
      | some c => .ok (c, rest.drop 4)
      | none => .error (.badUnicodeEscape (String.ofList (rest.take 4)))
    else .ok (c, rest)

theorem length_of_scanEscape {cs rest : List Char} {c : Char} (h : scanEscape cs = .ok (c, rest)) :
    rest.length < cs.length := by
  unfold scanEscape at h
  split at h
  · cases h
  · repeat' split at h
    all_goals cases h
    all_goals simp only [List.length_cons, List.length_drop]; omega

/-- The content of a string up to its closing quote, and what follows that. -/
def scanString (quote : Char) (cs : List Char) : Except Mistake (List Char × List Char) :=
  match cs with
  | [] => .error .unterminatedString
  | c :: rest =>
    if c = quote then .ok ([], rest)
    else if c = '\n' then .error .newlineInString
    else if c = '\\' then
      match _h : scanEscape rest with
      | .error m => .error m
      | .ok (e, rest') => (scanString quote rest').map fun (cs, r) => (e :: cs, r)
    else (scanString quote rest).map fun (cs, r) => (c :: cs, r)
termination_by cs.length
decreasing_by
  · have := length_of_scanEscape _h; simp only [List.length_cons]; omega
  · simp

theorem length_of_scanString {quote : Char} {cs s rest : List Char}
    (h : scanString quote cs = .ok (s, rest)) : rest.length < cs.length := by
  fun_induction scanString quote cs generalizing s rest with
  | case1 => cases h
  | case2 => cases h; simp
  | case3 => cases h
  | case4 => cases h
  | case5 _ _ rest' he _ _ ih =>
    cases hs : scanString quote rest' with
    | error m => rw [hs] at h; cases h
    | ok p =>
      rw [hs] at h
      have hl := length_of_scanEscape he
      have : p.2.length < _ := ih hs
      simp only [Except.map, Except.ok.injEq, Prod.mk.injEq] at h
      rw [← h.2]; simp; omega
  | case6 c cs' _ _ _ ih =>
    cases hs : scanString quote cs' with
    | error m => rw [hs] at h; cases h
    | ok p =>
      rw [hs] at h
      have : p.2.length < _ := ih hs
      simp only [Except.map, Except.ok.injEq, Prod.mk.injEq] at h
      rw [← h.2]; simp; omega

/-! ### Blanks and comments -/

/-- What follows a comment that is closed by `*/`, and the line there. -/
def skipComment : List Char → Nat → Option (List Char × Nat)
  | [], _ => none
  | '*' :: '/' :: rest, line => some (rest, line)
  | c :: rest, line => skipComment rest (if c = '\n' then line + 1 else line)

theorem length_of_skipComment {cs rest : List Char} {line line' : Nat}
    (h : skipComment cs line = some (rest, line')) : rest.length < cs.length := by
  fun_induction skipComment cs line with
  | case1 => cases h
  | case2 => cases h; simp only [List.length_cons]; omega
  | case3 _ _ _ _ ih => have := ih h; simp only [List.length_cons]; omega

/-- What follows blanks and comments, and the line there. -/
def skipBlanks (cs : List Char) (line : Nat) : Except LocatedMistake (List Char × Nat) :=
  match cs with
  | [] => .ok ([], line)
  | '/' :: '/' :: rest => skipBlanks (rest.dropWhile (· ≠ '\n')) line
  | '/' :: '*' :: rest =>
    match _h : skipComment rest line with
    | some (rest', line') => skipBlanks rest' line'
    | none => .error ⟨line, .unterminatedComment⟩
  | c :: rest =>
    if c = '\n' then skipBlanks rest (line + 1)
    else if Text.isBlank c then skipBlanks rest line
    else .ok (c :: rest, line)
termination_by cs.length
decreasing_by
  · have := (List.dropWhile_suffix (· ≠ '\n') (l := rest)).length_le
    simp only [List.length_cons]; omega
  · have := length_of_skipComment _h; simp only [List.length_cons]; omega
  · simp
  · simp

theorem length_of_skipBlanks {cs rest : List Char} {line line' : Nat}
    (h : skipBlanks cs line = .ok (rest, line')) : rest.length ≤ cs.length := by
  fun_induction skipBlanks cs line with
  | case1 => cases h; simp
  | case2 line rest ih =>
    have := ih h
    have := (List.dropWhile_suffix (· ≠ '\n') (l := rest)).length_le
    simp only [List.length_cons] at *; omega
  | case3 line rest rest' line' hc ih =>
    have := ih h
    have := length_of_skipComment hc
    simp only [List.length_cons]; omega
  | case4 => cases h
  | case5 _ _ _ _ ih => have := ih h; simp only [List.length_cons]; omega
  | case6 _ _ _ _ _ _ _ ih => have := ih h; simp only [List.length_cons]; omega
  | case7 => cases h; simp

/-! ### Tokens -/

/-- The sign that a text begins with after its first character, and what follows the sign. -/
def scanSign? (c : Char) (rest : List Char) : Option (Kind × List Char) :=
  match c, rest with
  | '(', rest => some (.openParen, rest)
  | ')', rest => some (.closeParen, rest)
  | '\x7b', rest => some (.openBrace, rest)
  | '\x7d', rest => some (.closeBrace, rest)
  | '[', rest => some (.openBracket, rest)
  | ']', rest => some (.closeBracket, rest)
  | ',', rest => some (.comma, rest)
  | ';', rest => some (.semicolon, rest)
  | '.', rest => some (.dot, rest)
  | '?', rest => some (.question, rest)
  | ':', rest => some (.colon, rest)
  | '*', rest => some (.star, rest)
  | '/', rest => some (.slash, rest)
  | '%', rest => some (.percent, rest)
  | '-', rest => some (.minus, rest)
  | '+', '=' :: rest => some (.plusAssign, rest)
  | '+', rest => some (.plus, rest)
  | '=', '>' :: rest => some (.arrow, rest)
  | '=', '=' :: '=' :: rest => some (.equal, rest)
  | '=', '=' :: rest => some (.equal, rest)
  | '=', rest => some (.assign, rest)
  | '!', '=' :: '=' :: rest => some (.notEqual, rest)
  | '!', '=' :: rest => some (.notEqual, rest)
  | '!', rest => some (.bang, rest)
  | '<', '=' :: rest => some (.lessEqual, rest)
  | '<', rest => some (.less, rest)
  | '>', '=' :: rest => some (.greaterEqual, rest)
  | '>', rest => some (.greater, rest)
  | '&', '&' :: rest => some (.and, rest)
  | '|', '|' :: rest => some (.or, rest)
  | _, _ => none

theorem length_of_scanSign? {c : Char} {cs rest : List Char} {k : Kind}
    (h : scanSign? c cs = some (k, rest)) : rest.length ≤ cs.length := by
  unfold scanSign? at h
  split at h <;> first
    | (simp only [Option.some.injEq, Prod.mk.injEq] at h
       simp only [← h.2, List.length_cons]
       omega)
    | cases h

/-- The integer literal of digits. -/
def intLiteral (digits : List Char) : Except Mistake Kind :=
  match (Text.readDigits digits).filter fun (n : Nat) => (n : Int) ≤ Text.maxInt64 with
  | some n => .ok (.int n)
  | none => .error (.integerOutOfRange (String.ofList digits))

/-- The token that begins with the first character, and what follows the token. -/
def scanToken (c : Char) (rest : List Char) : Except Mistake (Kind × List Char) :=
  match scanSign? c rest with
  | some r => .ok r
  | none =>
    if c = '"' ∨ c = '\'' then
      (scanString c rest).map fun (cs, r) => (.text (String.ofList cs), r)
    else if c.isDigit then
      (intLiteral (c :: rest.takeWhile Char.isDigit)).map fun k => (k, rest.dropWhile Char.isDigit)
    else if beginsName c then
      .ok (.ofWord (String.ofList (c :: rest.takeWhile continuesName)),
        rest.dropWhile continuesName)
    else .error (.unexpectedCharacter c)

theorem length_of_scanToken {c : Char} {cs rest : List Char} {k : Kind}
    (h : scanToken c cs = .ok (k, rest)) : rest.length ≤ cs.length := by
  unfold scanToken at h
  split at h
  · rename_i hs; cases h; exact length_of_scanSign? hs
  · split at h
    · cases hs : scanString c cs with
      | error m => rw [hs] at h; cases h
      | ok p =>
        rw [hs] at h
        have : p.2.length < _ := length_of_scanString hs
        simp only [Except.map, Except.ok.injEq, Prod.mk.injEq] at h
        rw [← h.2]; omega
    · split at h
      · cases hs : intLiteral (c :: cs.takeWhile Char.isDigit) with
        | error m => rw [hs] at h; cases h
        | ok k' =>
          rw [hs] at h
          simp only [Except.map, Except.ok.injEq, Prod.mk.injEq] at h
          rw [← h.2]
          exact (List.dropWhile_suffix _).length_le
      · split at h
        · cases h; exact (List.dropWhile_suffix _).length_le
        · cases h

/-- The tokens of a text whose first character is on the given line; the end of the text is the last
of them. -/
def tokenizeFrom (cs : List Char) (line : Nat) : Except LocatedMistake (List Token) :=
  match _h : skipBlanks cs line with
  | .error m => .error m
  | .ok ([], line') => .ok [⟨.eof, line'⟩]
  | .ok (c :: rest, line') =>
    match _h : scanToken c rest with
    | .error m => .error ⟨line', m⟩
    | .ok (kind, rest') => (tokenizeFrom rest' line').map (⟨kind, line'⟩ :: ·)
termination_by cs.length
decreasing_by
  have h1 := length_of_skipBlanks ‹skipBlanks cs line = _›
  have h2 := length_of_scanToken _h
  simp only [List.length_cons] at h1; omega

/-- The tokens of a text. -/
def tokenize (source : String) : Except LocatedMistake (List Token) :=
  tokenizeFrom source.toList 1

end Polyglot.Script
