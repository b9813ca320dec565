import Polyglot.Text.Raw

/-!
# Sessions

A session is the run of a program as its standard streams show it: what it writes, when it reads, and
how it ends. What it reads from and who reads what it writes is not part of it, so the same session can
be run on a text or in exchange with another party.

`Session.runOn` runs a session on a given input.
-/

namespace Polyglot

/-- The streams that a program writes to. -/
inductive Sink where
  /-- What it is run for. -/
  | output
  /-- What it says beside that. -/
  | diagnostics
  deriving DecidableEq, Repr

/-- What a program does next on its streams. -/
inductive Session (α : Type) where
  /-- It ends. -/
  | done (result : α)
  /-- It runs on, without ever doing anything on its streams. -/
  | endless
  /-- It writes to a stream. -/
  | write (sink : Sink) (text : Text.Raw) (next : Unit → Session α)
  /-- It closes a stream that it writes to. -/
  | close (sink : Sink) (next : Unit → Session α)
  /-- It reads the first line that is not to be skipped; nothing at the end of the input. -/
  | read (skip : Text.Raw → Bool) (next : Text.Raw → Session α)
  /-- It closes its input. -/
  | closeInput (next : Unit → Session α)
  /-- It waits. -/
  | sleep (milliseconds : Nat) (next : Unit → Session α)

namespace Session

variable {α β : Type}

/-- Goes on with what depends on the result. -/
protected def bind : Session α → (α → Session β) → Session β
  | done a, f => f a
  | endless, _ => endless
  | write sink text next, f => write sink text fun _ => (next ()).bind f
  | close sink next, f => close sink fun _ => (next ()).bind f
  | read skip next, f => read skip fun line => (next line).bind f
  | closeInput next, f => closeInput fun _ => (next ()).bind f
  | sleep ms next, f => sleep ms fun _ => (next ()).bind f

instance : Monad Session where
  pure := done
  bind := Session.bind

theorem bind_done (x : Session α) : x.bind done = x := by
  induction x with
  | done => rfl
  | endless => rfl
  | write _ _ _ ih | close _ _ ih | read _ _ ih | closeInput _ ih | sleep _ _ ih =>
    simp only [Session.bind]; congr; funext r; exact ih r

theorem bind_bind {γ : Type} (x : Session α) (f : α → Session β) (g : β → Session γ) :
    (x.bind f).bind g = x.bind fun a => (f a).bind g := by
  induction x with
  | done => rfl
  | endless => rfl
  | write _ _ _ ih | close _ _ ih | read _ _ ih | closeInput _ ih | sleep _ _ ih =>
    simp only [Session.bind]; congr; funext r; exact ih r

instance : LawfulMonad Session :=
  LawfulMonad.mk' Session bind_done (fun _ _ => rfl) bind_bind

/-- Writes a text to a stream. -/
def put (sink : Sink) (text : String) : Session Unit :=
  write sink (Text.Raw.ofString text) fun _ => done ()

/-- Reads the first line that is not to be skipped. -/
def readLine (skip : Text.Raw → Bool) : Session Text.Raw := read skip done

/-- The first line that is not to be skipped, and the input after it. -/
def nextLine (skip : Text.Raw → Bool) (input : Text.Raw) : Text.Raw × Text.Raw :=
  match input with
  | [] => ([], [])
  | c :: rest =>
    let (line, after) := Text.Raw.splitLine (c :: rest)
    if skip line then nextLine skip (Text.Raw.splitLine (c :: rest)).2 else (line, after)
termination_by input.length
decreasing_by have := Text.Raw.length_splitLine c rest; simp; omega

/-- What is left of a session that has been run. -/
structure Transcript (α : Type) where
  /-- What it wrote as its output. -/
  output : Text.Raw
  /-- What it wrote beside that. -/
  diagnostics : Text.Raw
  /-- How it ended, if it did. -/
  result : Option α

/-- Puts what was written before a transcript. -/
def Transcript.after (t : Transcript α) (sink : Sink) (text : Text.Raw) : Transcript α :=
  match sink with
  | .output => { t with output := text ++ t.output }
  | .diagnostics => { t with diagnostics := text ++ t.diagnostics }

/-- Runs a session on an input. -/
def runOn : Session α → (input : Text.Raw) → Transcript α
  | done a, _ => ⟨[], [], some a⟩
  | endless, _ => ⟨[], [], none⟩
  | write sink text next, input => ((next ()).runOn input).after sink text
  | close _ next, input => (next ()).runOn input
  | read skip next, input => (next (nextLine skip input).1).runOn (nextLine skip input).2
  | closeInput next, _ => (next ()).runOn []
  | sleep _ next, input => (next ()).runOn input

end Session

end Polyglot
