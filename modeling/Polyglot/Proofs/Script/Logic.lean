import Polyglot.Script.Run

/-!
# What runs of scripts keep

`Talk.Ensures` says that a computation has a property when it is done, whatever comes back from the
functions that it calls, as far as all that comes back is as required.

`Eval.Keeps` says of a part of a run that it keeps an invariant of the scopes, whether it fails or
not, and that its value has a property if there is one.  There is a rule for each of the ways in which
runs are put together.
-/

namespace Polyglot

namespace Talk

variable {α β σ : Type} {Reply : Except Fault Value → Prop}

/-- Whether a computation has a property when it is done, if all that comes back from its calls has
another. -/
def Ensures (Reply : Except Fault Value → Prop) (Post : α → Prop) : Talk α → Prop
  | done a => Post a
  | call _ _ next => ∀ reply, Reply reply → (next reply).Ensures Reply Post

theorem Ensures.mono {x : Talk α} {P Q : α → Prop} (h : x.Ensures Reply P) (hPQ : ∀ a, P a → Q a) :
    x.Ensures Reply Q := by
  induction x with
  | done a => exact hPQ a h
  | call _ _ next ih => exact fun reply hreply => ih reply (h reply hreply)

theorem Ensures.bind {x : Talk α} {f : α → Talk β} {P : α → Prop} {Q : β → Prop}
    (hx : x.Ensures Reply P) (hf : ∀ a, P a → (f a).Ensures Reply Q) :
    (x >>= f).Ensures Reply Q := by
  induction x with
  | done a => exact hf a hx
  | call _ _ next ih => exact fun reply hreply => ih reply (hx reply hreply)

/-- What follows may be replaced by what does the same after every result that there can be. -/
theorem Ensures.bind_congr {x : Talk α} {P : α → Prop} (h : x.Ensures (fun _ => True) P)
    {f g : α → Talk β} (hfg : ∀ a, P a → f a = g a) : x >>= f = x >>= g := by
  induction x with
  | done a => exact hfg a h
  | call function arguments next ih =>
    exact congrArg (Talk.call function arguments) (funext fun reply => ih reply (h reply trivial))

/-- What is ensured holds of every run in which the answers are as required. -/
theorem Ensures.answeredBy {x : Talk α} {P : α → Prop} (h : x.Ensures Reply P)
    {answer : String → List Value → σ → Except Fault Value × σ}
    (hanswer : ∀ function arguments s, Reply (answer function arguments s).1) (s : σ) :
    P (x.answeredBy answer s).1 := by
  induction x generalizing s with
  | done a => exact h
  | call function arguments next ih => exact ih _ (h _ (hanswer function arguments s)) _

end Talk

namespace Script.Eval

variable {α β : Type}

/-- Whether a part of a run keeps an invariant of the store and its value, if it has one, has a
property. -/
def Keeps (Reply : Except Fault Value → Prop) (Inv : Store → Prop) (P : α → Prop) (x : Eval α) :
    Prop :=
  ∀ s, Inv s → (x.run.run s : Talk (Except Failure α × Store)).Ensures Reply fun r =>
    Inv r.2 ∧ ∀ a, r.1 = .ok a → P a

variable {Reply : Except Fault Value → Prop} {Inv : Store → Prop} {P : α → Prop} {Q : β → Prop}

theorem Keeps.pure {a : α} (h : P a) : Keeps Reply Inv P (pure a) :=
  fun _ hs => ⟨hs, fun _ hb => Except.ok.inj hb ▸ h⟩

theorem Keeps.throw (failure : Failure) : Keeps Reply Inv P (throw failure) := by
  intro _ hs
  exact ⟨hs, by rintro _ ⟨⟩⟩

theorem Keeps.fail (error : RuntimeError) : Keeps Reply Inv P (Eval.fail error) :=
  Keeps.throw _

theorem Keeps.bind {x : Eval α} {f : α → Eval β} (hx : Keeps Reply Inv P x)
    (hf : ∀ a, P a → Keeps Reply Inv Q (f a)) : Keeps Reply Inv Q (x >>= f) := by
  intro s hs
  refine Talk.Ensures.bind (hx s hs) ?_
  rintro ⟨result, s'⟩ ⟨hs', hr⟩
  cases result with
  | ok a => exact hf a (hr a rfl) s' hs'
  | error failure => exact ⟨hs', by rintro _ ⟨⟩⟩

theorem Keeps.mono {R : α → Prop} {x : Eval α} (hx : Keeps Reply Inv P x) (h : ∀ a, P a → R a) :
    Keeps Reply Inv R x :=
  fun s hs => (hx s hs).mono fun _ hr => ⟨hr.1, fun a ha => h a (hr.2 a ha)⟩

theorem Keeps.map {x : Eval α} {f : α → β} (hx : Keeps Reply Inv P x) (hf : ∀ a, P a → Q (f a)) :
    Keeps Reply Inv Q (f <$> x) := by
  rw [← bind_pure_comp]
  exact hx.bind fun a ha => .pure (hf a ha)

theorem Keeps.ofExcept {x : Except RuntimeError α} (h : ∀ a, x = .ok a → P a) :
    Keeps Reply Inv P (Eval.ofExcept x) := by
  cases x with
  | ok a => exact .pure (h a rfl)
  | error e => exact .fail e

/-- Something done for each item keeps what each of its rounds keeps. -/
theorem Keeps.forEach {γ : Type} {f : γ → Eval PUnit} (xs : List γ)
    (h : ∀ x, Keeps Reply Inv (fun _ => True) (f x)) :
    Keeps Reply Inv (fun _ => True) (forIn xs PUnit.unit fun x _ => do
      f x
      Pure.pure (ForInStep.yield PUnit.unit)) := by
  induction xs with
  | nil => exact .pure trivial
  | cons x xs ih =>
    rw [List.forIn_cons]
    have round : Keeps Reply Inv (fun r => r = ForInStep.yield PUnit.unit) (do
        f x
        Pure.pure (ForInStep.yield PUnit.unit)) := (h x).bind fun _ _ => .pure rfl
    refine round.bind fun r hr => ?_
    -- Every round goes on to the next.
    obtain rfl : r = _ := hr
    exact ih

/-! ### The store -/

theorem Keeps.get : Keeps Reply Inv Inv (get : Eval Store) :=
  fun _ hs => ⟨hs, fun _ hb => Except.ok.inj hb ▸ hs⟩

theorem Keeps.modifyGet {f : Store → α × Store} (h : ∀ s, Inv s → P (f s).1 ∧ Inv (f s).2) :
    Keeps Reply Inv P (modifyGet f) :=
  fun s hs => ⟨(h s hs).2, fun _ hb => Except.ok.inj hb ▸ (h s hs).1⟩

theorem Keeps.modify {f : Store → Store} (h : ∀ s, Inv s → Inv (f s)) :
    Keeps Reply Inv (fun _ => True) (modify f : Eval Unit) :=
  fun s hs => ⟨h s hs, fun _ _ => trivial⟩

/-! ### Calls -/

theorem Keeps.ask {Q : Except Fault Value → Prop} (function : String) (arguments : List Value)
    (h : ∀ reply, Reply reply → Q reply) :
    Keeps Reply Inv Q (liftM (Talk.ask function arguments)) :=
  fun _ hs reply hreply => ⟨hs, fun _ hb => Except.ok.inj hb ▸ h reply hreply⟩

theorem Keeps.counted {part : Eval α} (hcount : ∀ (f : Nat → Nat) s, Inv s →
    Inv { s with active := f s.active }) (h : Keeps Reply Inv P part) :
    Keeps Reply Inv P (Eval.counted part) := by
  have hactive : ∀ f, Keeps Reply Inv (fun _ => True) (Eval.countActive f) :=
    fun f => .modify (hcount f)
  -- A failure is put off until the count is back where it was.
  have hobserving : Keeps Reply Inv (fun r : Except Failure α => ∀ a, r = .ok a → P a)
      (Eval.counted.observing part) := by
    intro s hs
    refine Talk.Ensures.bind (h s hs) ?_
    rintro ⟨result, s'⟩ ⟨hs', hr⟩
    exact ⟨hs', fun _ hb => Except.ok.inj hb ▸ hr⟩
  refine (hactive _).bind fun _ _ => hobserving.bind fun result hr => (hactive _).bind fun _ _ => ?_
  cases result with
  | ok a => exact .pure (hr a rfl)
  | error failure => exact .throw failure

end Script.Eval

end Polyglot
