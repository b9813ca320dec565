import Polyglot.Json.Basic

/-!
# JSON tokens

The words of JSON text, and their recognition. A string or a numeral is accepted for its form alone;
whether it has a value is kept beside it, because a reader may skip over one that has none: an
escape that is half of a surrogate pair, or a number out of the range of doubles.
-/

namespace Polyglot.Json

/-- A word of JSON text. -/
inductive Token where
  /-- An opening bracket. -/
  | openArray
  /-- A closing bracket. -/
  | closeArray
  /-- An opening brace. -/
  | openObject
  /-- A closing brace. -/
  | closeObject
  /-- A comma. -/
  | comma
  /-- A colon. -/
  | colon
  /-- The word `null`. -/
  | null
  /-- The words `true` and `false`. -/
  | bool (value : Bool)
  /-- A numeral, with its number if it has one. -/
  | num (value : Option Number)
  /-- A string, with its text if it has one. -/
  | str (value : Option String)
  deriving DecidableEq, Repr

/-- What stands between the quotes of a string, piece by piece. -/
inductive Piece where
  /-- A character, as it is or behind a backslash. -/
  | char (c : Char)
  /-- A code unit of 16 bits, written by four hexadecimal digits. -/
  | unit (n : Nat)
  deriving DecidableEq, Repr

/-- The code unit written by four hexadecimal digits. -/
def unitValue? (a b c d : Char) : Option Nat := do
  let a ← Text.hexValue? a
  let b ← Text.hexValue? b
  let c ← Text.hexValue? c
  let d ← Text.hexValue? d
  pure (((a * 16 + b) * 16 + c) * 16 + d)

/-- The character that a letter after a backslash stands for. -/
def simpleEscape? (c : Char) : Option Char :=
  if c = '"' ∨ c = '\\' ∨ c = '/' then some c
  else if c = 'b' then some '\x08'
  else if c = 'f' then some '\x0c'
  else if c = 'n' then some '\n'
  else if c = 'r' then some '\r'
  else if c = 't' then some '\t'
  else none

/-- The pieces up to the closing quote, and what follows it. -/
def scanPieces? : List Char → Option (List Piece × List Char)
  | [] => none
  | '"' :: rest => some ([], rest)
  | '\\' :: 'u' :: a :: b :: c :: d :: rest => do
    let n ← unitValue? a b c d
    let (ps, rest) ← scanPieces? rest
    pure (.unit n :: ps, rest)
  | '\\' :: c :: rest => do
    let c ← simpleEscape? c
    let (ps, rest) ← scanPieces? rest
    pure (.char c :: ps, rest)
  | c :: rest =>
    if c.toNat < 0x20 ∨ c = '\\' then none
    else do
      let (ps, rest) ← scanPieces? rest
      pure (.char c :: ps, rest)

/-- The text that pieces stand for; none when half of a surrogate pair is among them. -/
def pieceChars? : List Piece → Option (List Char)
  | [] => some []
  | .char c :: ps => (pieceChars? ps).map (c :: ·)
  | .unit n :: .unit m :: ps =>
    if 0xD800 ≤ n ∧ n < 0xDC00 then
      if 0xDC00 ≤ m ∧ m < 0xE000 then
        (pieceChars? ps).map (Char.ofNat (0x10000 + (n - 0xD800) * 0x400 + (m - 0xDC00)) :: ·)
      else none
    else if 0xDC00 ≤ n ∧ n < 0xE000 then none
    else (pieceChars? (.unit m :: ps)).map (Char.ofNat n :: ·)
  | .unit n :: ps =>
    if 0xD800 ≤ n ∧ n < 0xE000 then none else (pieceChars? ps).map (Char.ofNat n :: ·)

/-- Whether a character separates tokens. -/
def isSpace (c : Char) : Bool := c = ' ' ∨ c = '\t' ∨ c = '\n' ∨ c = '\r'

theorem length_of_scanPieces? {cs : List Char} {ps : List Piece} {rest : List Char}
    (h : scanPieces? cs = some (ps, rest)) : rest.length < cs.length := by
  fun_induction scanPieces? cs generalizing ps rest <;> simp_all [Option.bind_eq_some_iff]
  all_goals grind

namespace Numeral

theorem length_digitSpan (cs : List Char) :
    (digitSpan cs).1.length + (digitSpan cs).2.length = cs.length := by
  fun_induction digitSpan cs <;> simp_all; omega

theorem length_of_scanWhole? {cs rest : List Char} {ds : List Nat}
    (h : scanWhole? cs = some (ds, rest)) : rest.length < cs.length := by
  unfold scanWhole? at h
  split at h
  · simp at h; simp [← h.2]
  · have hl := length_digitSpan cs
    split at h
    · simp at h
    · rename_i hne
      simp only [Option.some.injEq] at h
      rw [h] at hl
      cases ds with
      | nil => exact absurd h (hne rest)
      | cons => simp at hl; omega

theorem length_of_scanFraction? {cs rest : List Char} {ds : List Nat}
    (h : scanFraction? cs = some (ds, rest)) : rest.length ≤ cs.length := by
  unfold scanFraction? at h
  split at h
  · rename_i cs
    have hl := length_digitSpan cs
    split at h
    · simp at h
    · simp only [Option.some.injEq] at h; rw [h] at hl; simp at hl ⊢; omega
  · simp at h; simp [← h.2]

theorem length_of_scanExponentDigits? {negative : Bool} {cs rest : List Char}
    {e : Option (Bool × List Nat)} (h : scanExponentDigits? negative cs = some (e, rest)) :
    rest.length ≤ cs.length := by
  unfold scanExponentDigits? at h
  have hl := length_digitSpan cs
  split at h
  · simp at h
  · rename_i heq; simp only [Option.some.injEq, Prod.mk.injEq] at h; rw [heq] at hl; simp at hl; grind

theorem length_of_scanExponent? {cs rest : List Char} {e : Option (Bool × List Nat)}
    (h : scanExponent? cs = some (e, rest)) : rest.length ≤ cs.length := by
  unfold scanExponent? at h
  split at h
  · split at h
    · split at h <;> have := length_of_scanExponentDigits? h <;> simp_all <;> omega
    · simp at h; simp [← h.2]
  · simp at h; simp [← h.2]

/-- A numeral takes at least one character. -/
theorem length_of_scan? {cs rest : List Char} {n : Numeral} (h : scan? cs = some (n, rest)) :
    rest.length < cs.length := by
  unfold scan? at h
  simp only [Option.bind_eq_bind, Option.bind_eq_some_iff, Prod.exists, Option.pure_def,
    Option.some.injEq, Prod.mk.injEq] at h
  obtain ⟨w, r1, h1, f, r2, h2, e, r3, h3, _, h4⟩ := h
  have l1 := length_of_scanWhole? h1
  have l2 := length_of_scanFraction? h2
  have l3 := length_of_scanExponent? h3
  subst h4
  split at l1 <;> simp_all <;> omega

end Numeral

/-- The tokens of a text; none if it has a part that is no token. -/
def tokens? (cs : List Char) : Option (List Token) :=
  match cs with
  | [] => some []
  | '[' :: rest => (tokens? rest).map (.openArray :: ·)
  | ']' :: rest => (tokens? rest).map (.closeArray :: ·)
  | '\x7b' :: rest => (tokens? rest).map (.openObject :: ·)
  | '\x7d' :: rest => (tokens? rest).map (.closeObject :: ·)
  | ',' :: rest => (tokens? rest).map (.comma :: ·)
  | ':' :: rest => (tokens? rest).map (.colon :: ·)
  | 'n' :: 'u' :: 'l' :: 'l' :: rest => (tokens? rest).map (.null :: ·)
  | 't' :: 'r' :: 'u' :: 'e' :: rest => (tokens? rest).map (.bool true :: ·)
  | 'f' :: 'a' :: 'l' :: 's' :: 'e' :: rest => (tokens? rest).map (.bool false :: ·)
  | '"' :: rest =>
    match _h : scanPieces? rest with
    | some (ps, rest') => (tokens? rest').map (.str ((pieceChars? ps).map String.ofList) :: ·)
    | none => none
  | c :: rest =>
    if isSpace c then tokens? rest
    else
      match _h : Numeral.scan? (c :: rest) with
      | some (n, rest') => (tokens? rest').map (.num n.value? :: ·)
      | none => none
termination_by cs.length
decreasing_by
  all_goals first
    | exact Nat.lt_succ_of_lt (length_of_scanPieces? _h)
    | exact Numeral.length_of_scan? _h
    | (simp; done)
    | (simp; omega)

end Polyglot.Json
