import Mathlib
import Polyglot.Script.Run

/-!
# Courses of runs

A `Course` writes down what a part of a run does, one thing after another: it looks at the store, does
one of a few acts on it (`Act`), or calls another function.  Each act is the whole of what the scopes
undergo at that moment, and says what in the script it is done by: which kind of declaration binds a
name in which scope, and from which scope a name is assigned to.  So a course shows the store at every
moment and not only at its end (`Course.moments`), and why it is another one than the moment before.
-/

namespace Polyglot.Script

/-! ### Acts -/

/-- What binds names. -/
inductive Declaration where
  /-- Every script has the function. -/
  | builtin
  /-- A `let`. -/
  | letBinding
  /-- A `const`. -/
  | constBinding
  /-- The declaration of a function. -/
  | function
  /-- The parameter of a function that is called. -/
  | parameter
  /-- The name of a loop. -/
  | loop
deriving DecidableEq

namespace Declaration

/-- Whether what is bound may be replaced. -/
def mutable : Declaration → Bool
  | constBinding | loop => false
  | _ => true

/-- The `let` or the `const` that a statement is. -/
def ofMutable (mutable : Bool) : Declaration := if mutable then letBinding else constBinding

@[simp]
theorem mutable_ofMutable (m : Bool) : (ofMutable m).mutable = m := by
  cases m <;> rfl

end Declaration

/-- What a run does to the store at one moment. -/
inductive Act where
  /-- Opens a scope inside another. -/
  | openScope (scope : ScopeId)
  /-- Binds a name in a scope, which must not have it yet. -/
  | define (declaration : Declaration) (scope : ScopeId) (name : String) (value : Datum)
  /-- Replaces the value of the closest binding of a name, which must be mutable. -/
  | assign (scope : ScopeId) (name : String) (value : Datum)
  /-- Makes a function of a declaration. -/
  | makeClosure (scope : ScopeId) (function : Function)
  /-- Changes the number of functions that are running. -/
  | countActive (change : Nat → Nat)

/-- The store after an act, or the error that keeps the act from being done. -/
def Act.perform (store : Store) : Act → Except RuntimeError Store
  | openScope scope => .ok (store.openScope scope).2
  | define declaration scope name value =>
    match store.bindingAt? scope name with
    | some _ => .error (.redeclared name)
    | none => .ok (store.bind scope name ⟨value, declaration.mutable⟩)
  | assign scope name value =>
    match store.resolve? scope name with
    | none => .error (.undefined name)
    | some (owner, binding) =>
      if binding.mutable then .ok (store.replace owner name value)
      else .error (.constantAssigned name)
  | makeClosure scope function => .ok (store.makeClosure scope function).2
  | countActive change => .ok { store with active := change store.active }

/-- Does an act; a run fails that cannot do it. -/
def Eval.act (a : Act) : Eval Unit := do
  match a.perform (← get) with
  | .ok later => set later
  | .error e => fail e

theorem Eval.define_eq_act (declaration : Declaration) (scope : ScopeId) (name : String)
    (value : Datum) :
    define scope name value declaration.mutable = act (.define declaration scope name value) := by
  refine ExceptT.ext (StateT.ext fun store => ?_)
  show ((match store.bindingAt? scope name with
    | some _ => fail (.redeclared name)
    | none => modify (·.bind scope name ⟨value, declaration.mutable⟩) : Eval Unit).run.run store :
      Talk _) =
      (match Act.perform store (.define declaration scope name value) with
      | .ok later => set later
      | .error e => fail e : Eval Unit).run.run store
  rw [Act.perform]
  cases store.bindingAt? scope name <;> rfl

theorem Eval.assign_eq_act (scope : ScopeId) (name : String) (value : Datum) :
    assign scope name value = act (.assign scope name value) := by
  refine ExceptT.ext (StateT.ext fun store => ?_)
  show ((match store.resolve? scope name with
    | none => fail (.undefined name)
    | some (owner, binding) =>
      if binding.mutable then modify (·.replace owner name value)
      else fail (.constantAssigned name) : Eval Unit).run.run store : Talk _) =
      (match Act.perform store (.assign scope name value) with
      | .ok later => set later
      | .error e => fail e : Eval Unit).run.run store
  rw [Act.perform]
  rcases store.resolve? scope name with _ | ⟨owner, binding⟩
  · rfl
  · cases h : binding.mutable <;> simp only [h] <;> rfl

/-! ### Courses -/

/-- What a part of a run does, one thing after another. -/
inductive Course (α : Type) where
  /-- It is over. -/
  | done (result : Except Failure α)
  /-- It looks at the store. -/
  | look (next : Store → Course α)
  /-- It does an act, and goes on also if that cannot be done. -/
  | act (act : Act) (next : Except RuntimeError Unit → Course α)
  /-- It calls a function, and goes on with the value or the fault that comes back. -/
  | call (function : String) (arguments : List Value) (next : Except Fault Value → Course α)

namespace Course

variable {α β σ : Type}

/-- Does what a course says. -/
def run : Course α → Store → Talk (Except Failure α × Store)
  | done result, store => .done (result, store)
  | look next, store => (next store).run store
  | act a next, store =>
    match a.perform store with
    | .ok later => (next (.ok ())).run later
    | .error e => (next (.error e)).run store
  | call function arguments next, store =>
    .call function arguments fun reply => (next reply).run store

/-- The acts that are done in a run, each with the store after it. -/
def moments (answer : String → List Value → σ → Except Fault Value × σ) :
    Course α → σ → Store → List (Act × Store)
  | done _, _, _ => []
  | look next, s, store => (next store).moments answer s store
  | act a next, s, store =>
    match a.perform store with
    | .ok later => (a, later) :: (next (.ok ())).moments answer s later
    | .error e => (next (.error e)).moments answer s store
  | call function arguments next, s, store =>
    let (reply, s) := answer function arguments s
    (next reply).moments answer s store

/-- The stores at all moments of a run, from the first to the last. -/
def stores (answer : String → List Value → σ → Except Fault Value × σ) (course : Course α) (s : σ)
    (store : Store) : List Store :=
  store :: (course.moments answer s store).map (·.2)

/-- Goes on with what depends on the result. -/
def andThen : Course α → (Except Failure α → Course β) → Course β
  | done result, f => f result
  | look next, f => look fun store => (next store).andThen f
  | act a next, f => act a fun outcome => (next outcome).andThen f
  | call function arguments next, f => call function arguments fun reply => (next reply).andThen f

/-- A failure ends what comes after it too. -/
instance : Monad Course where
  pure a := done (.ok a)
  bind course f := course.andThen fun
    | .ok a => f a
    | .error failure => done (.error failure)

theorem run_andThen (course : Course α) (f : Except Failure α → Course β) (store : Store) :
    (course.andThen f).run store = course.run store >>= fun r => (f r.1).run r.2 := by
  induction course generalizing store with
  | done result => rfl
  | look next ih => exact ih store store
  | act a next ih =>
    rw [andThen, run, run]
    split
    · exact ih _ _
    · exact ih _ _
  | call function arguments next ih =>
    exact congrArg (Talk.call function arguments) (funext fun reply => ih reply store)

variable (answer : String → List Value → σ → Except Fault Value × σ)

/-- The store after a run is that of its last moment. -/
theorem getLast?_stores (course : Course α) (s : σ) (store : Store) :
    (course.stores answer s store).getLast? =
      some ((course.run store).answeredBy answer s).1.2 := by
  induction course generalizing s store with
  | done result => rfl
  | look next ih => exact ih store s store
  | act a next ih =>
    rw [run, stores, moments]
    split
    · rename_i later _
      rw [List.map_cons, List.getLast?_cons_cons]
      exact ih (.ok ()) s later
    · exact ih _ s store
  | call function arguments next ih => exact ih _ _ store

/-- At each moment an act is done on the store of the moment before. -/
theorem perform_of_moments (course : Course α) (s : σ) (store : Store) {i : Nat} {a : Act}
    {later : Store} (h : (course.moments answer s store)[i]? = some (a, later)) :
    ∃ earlier, (course.stores answer s store)[i]? = some earlier ∧
      (course.stores answer s store)[i + 1]? = some later ∧ a.perform earlier = .ok later := by
  induction course generalizing s store i with
  | done result => cases h
  | look next ih => exact ih store s store h
  | act b next ih =>
    rw [stores]
    rw [moments] at h ⊢
    split at h
    · rename_i after hafter
      cases i with
      | zero =>
        obtain ⟨rfl, rfl⟩ := Prod.mk.inj (Option.some.inj h)
        exact ⟨store, rfl, rfl, hafter⟩
      | succ i => exact ih (.ok ()) s after h
    · exact ih _ s store h
  | call function arguments next ih => exact ih _ _ store h

/-- From each moment to the next one act is done. -/
theorem isChain_stores (course : Course α) (s : σ) (store : Store) :
    List.IsChain (fun earlier later => ∃ a : Act, a.perform earlier = .ok later)
      (course.stores answer s store) := by
  refine List.isChain_iff_getElem.mpr fun i hi => ?_
  have hmoment : i < (course.moments answer s store).length := by
    simpa [stores] using hi
  obtain ⟨earlier, hearlier, hlater, hperform⟩ := course.perform_of_moments answer s store
    (List.getElem?_eq_getElem hmoment)
  obtain ⟨_, rfl⟩ := List.getElem?_eq_some_iff.mp hearlier
  obtain ⟨_, heq⟩ := List.getElem?_eq_some_iff.mp hlater
  exact ⟨_, heq ▸ hperform⟩

end Course

end Polyglot.Script
