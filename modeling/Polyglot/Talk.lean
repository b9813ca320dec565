import Polyglot.Fault
import Polyglot.Value.Basic

/-!
# Computations that call back

A computation that may ask for the evaluation of other functions before it is done. What answers the
calls is not part of it: `Talk.answeredBy` answers them by a function with a state.
-/

namespace Polyglot

/-- A computation that may call other functions. -/
inductive Talk (α : Type) where
  /-- It is done. -/
  | done (result : α)
  /-- It calls a function, and goes on with the value or the fault that comes back. -/
  | call (function : String) (arguments : List Value) (next : Except Fault Value → Talk α)

namespace Talk

variable {α β σ : Type}

/-- Goes on with what depends on the result. -/
protected def bind : Talk α → (α → Talk β) → Talk β
  | done a, f => f a
  | call function arguments next, f => call function arguments fun reply => (next reply).bind f

instance : Monad Talk where
  pure := done
  bind := Talk.bind

theorem bind_done (x : Talk α) : x.bind done = x := by
  induction x with
  | done a => rfl
  | call function arguments next ih => simp only [Talk.bind]; congr; funext r; exact ih r

theorem bind_bind {γ : Type} (x : Talk α) (f : α → Talk β) (g : β → Talk γ) :
    (x.bind f).bind g = x.bind fun a => (f a).bind g := by
  induction x with
  | done a => rfl
  | call function arguments next ih => simp only [Talk.bind]; congr; funext r; exact ih r

instance : LawfulMonad Talk := LawfulMonad.mk' Talk bind_done (fun _ _ => rfl) bind_bind

/-- Calls a function. -/
def ask (function : String) (arguments : List Value) : Talk (Except Fault Value) :=
  call function arguments done

/-- Answers each call by a function, which also changes a state. -/
def answeredBy (answer : String → List Value → σ → Except Fault Value × σ) : Talk α → σ → α × σ
  | done a, s => (a, s)
  | call function arguments next, s =>
    let (reply, s) := answer function arguments s
    (next reply).answeredBy answer s

end Talk

end Polyglot
