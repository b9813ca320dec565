import Polyglot.Script.Token

/-!
# Reading from a list of tokens

A reader takes some tokens from the front of a list and leaves the rest. Its type says that the rest
is not longer, or that it is shorter, so that a loop over a reader that takes something ends when the
tokens do.
-/

namespace Polyglot.Script

/-- The end of a list of tokens that has no more tokens than a given number. -/
abbrev AtMost (n : Nat) := { rest : List Token // rest.length ≤ n }

/-- A reader that may leave all the tokens. -/
def Reads (α : Type) := (ts : List Token) → Except LocatedMistake (α × AtMost ts.length)

/-- A reader that takes at least one token. -/
def Takes (α : Type) :=
  (ts : List Token) → Except LocatedMistake (α × { rest : List Token // rest.length < ts.length })

namespace Reads

variable {α β : Type}

/-- Takes nothing. -/
protected def pure (a : α) : Reads α := fun ts => .ok (a, ⟨ts, Nat.le_refl _⟩)

/-- Reads, then reads what depends on it. -/
protected def bind (p : Reads α) (q : α → Reads β) : Reads β := fun ts =>
  match p ts with
  | .error m => .error m
  | .ok (a, rest) =>
    match q a rest.val with
    | .error m => .error m
    | .ok (b, rest') => .ok (b, ⟨rest'.val, Nat.le_trans rest'.property rest.property⟩)

instance : Monad Reads where
  pure := Reads.pure
  bind := Reads.bind

/-- Fails at the first token left. -/
def fail (mistake : Kind → Mistake) : Reads α := fun ts =>
  let token := ts.headD ⟨.eof, 0⟩
  .error ⟨token.line, mistake token.kind⟩

/-- The kind of the first token, which stays. -/
def peek : Reads Kind := fun ts => .ok ((ts.headD ⟨.eof, 0⟩).kind, ⟨ts, Nat.le_refl _⟩)

end Reads

namespace Takes

variable {α β : Type}

/-- Forgets that something is taken. -/
def reads (p : Takes α) : Reads α := fun ts =>
  match p ts with
  | .error m => .error m
  | .ok (a, rest) => .ok (a, ⟨rest.val, Nat.le_of_lt rest.property⟩)

instance : Coe (Takes α) (Reads α) := ⟨Takes.reads⟩

/-- Takes something, then reads what depends on it. -/
def andThen (p : Takes α) (q : α → Reads β) : Takes β := fun ts =>
  match p ts with
  | .error m => .error m
  | .ok (a, rest) =>
    match q a rest.val with
    | .error m => .error m
    | .ok (b, rest') => .ok (b, ⟨rest'.val, Nat.lt_of_le_of_lt rest'.property rest.property⟩)

/-- Fails at the first token left. -/
def fail (mistake : Kind → Mistake) : Takes α := fun ts =>
  let token := ts.headD ⟨.eof, 0⟩
  .error ⟨token.line, mistake token.kind⟩

/-- Takes the first token, whatever it is. -/
def token : Takes Kind := fun ts =>
  match ts with
  | [] => .error ⟨0, .unexpectedToken .eof⟩
  | t :: rest => .ok (t.kind, ⟨rest, Nat.lt_succ_self _⟩)

/-- Chooses a reader by the first token. -/
def choose (p : Kind → Takes α) : Takes α := fun ts => p (ts.headD ⟨.eof, 0⟩).kind ts

/-- Chooses a reader by the first two tokens. -/
def chooseByTwo (p : Kind → Kind → Takes α) : Takes α := fun ts =>
  p (ts.headD ⟨.eof, 0⟩).kind (ts.tail.headD ⟨.eof, 0⟩).kind ts

/-- Takes the first token, then reads. -/
def after (q : Reads α) : Takes α := token.andThen fun _ => q

end Takes

/-! ### Loops -/

/-- Repeats a reader, which goes on with another state or ends with a result. -/
def Takes.iterate {σ α : Type} (step : σ → Takes (σ ⊕ α)) (state : σ) : Takes α := fun ts =>
  match step state ts with
  | .error m => .error m
  | .ok (.inr a, rest) => .ok (a, rest)
  | .ok (.inl state', rest) =>
    match Takes.iterate step state' rest.val with
    | .error m => .error m
    | .ok (a, rest') => .ok (a, ⟨rest'.val, Nat.lt_trans rest'.property rest.property⟩)
termination_by ts => ts.length
decreasing_by exact rest.property

/-- Repeats the readers that are chosen by the first token, until none is. -/
def Reads.repeat {σ : Type} (next : σ → Kind → Option (Takes σ)) (state : σ) : Reads σ := fun ts =>
  match next state (ts.headD ⟨.eof, 0⟩).kind with
  | none => .ok (state, ⟨ts, Nat.le_refl _⟩)
  | some p =>
    match p ts with
    | .error m => .error m
    | .ok (state', rest) =>
      match Reads.repeat next state' rest.val with
      | .error m => .error m
      | .ok (result, rest') =>
        .ok (result, ⟨rest'.val, Nat.le_trans rest'.property (Nat.le_of_lt rest.property)⟩)
termination_by ts => ts.length
decreasing_by exact rest.property

/-! ### Single tokens -/

/-- Takes a token of the given kind, or fails. -/
def expect (kind : Kind) (what : String) : Takes Unit := Takes.choose fun found =>
  if found = kind then Takes.token.andThen fun _ => pure ()
  else Takes.fail (.expected what)

/-- Takes a name, or fails. -/
def expectName (what : String) : Takes String := Takes.choose fun
  | .name name => Takes.token.andThen fun _ => pure name
  | _ => Takes.fail (.expected what)

/-- Takes a token of the given kind if there is one. -/
def accept (kind : Kind) : Reads Bool := fun ts =>
  match ts with
  | t :: rest =>
    if t.kind = kind then .ok (true, ⟨rest, Nat.le_succ _⟩) else .ok (false, ⟨t :: rest, Nat.le_refl _⟩)
  | [] => .ok (false, ⟨[], Nat.le_refl _⟩)

end Polyglot.Script
