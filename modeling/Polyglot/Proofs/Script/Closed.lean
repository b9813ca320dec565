import Mathlib.Tactic.Choose
import Polyglot.Proofs.Script.Data
import Polyglot.Proofs.Script.Depth

/-!
# What holds of all runs of scripts

A run is put together from parts that do nothing but give a value, fail, read the store, open a scope,
bind a name or assign to it, make a function, or call another function.  What holds of these parts, and
of two parts one after the other if it holds of both, holds of every run (`Eval.Closed.runProgram`).
Along with it goes a property of data that scripts keep, which then holds of all values in the run.

Such a property is `Talk.StopsOnFault`: a run that is told that a call has failed is over, because
nothing in a script can catch a failure (`invoke_stopsOnFault`).
-/

namespace Polyglot

/-! ### Runs that end with the first fault -/

namespace Talk

variable {α β : Type}

/-- Whether a computation is over, with a failure, when one of its calls has failed. -/
def StopsOnFault (Failed : α → Prop) : Talk α → Prop
  | done _ => True
  | call _ _ next => (∀ fault, ∃ a, next (.error fault) = done a ∧ Failed a) ∧
      ∀ reply, (next reply).StopsOnFault Failed

theorem StopsOnFault.bind {Failed : α → Prop} {Failed' : β → Prop} {x : Talk α} {f : α → Talk β}
    (hx : x.StopsOnFault Failed) (hfailed : ∀ a, Failed a → ∃ b, f a = done b ∧ Failed' b)
    (hf : ∀ a, (f a).StopsOnFault Failed') : (x >>= f).StopsOnFault Failed' := by
  induction x with
  | done a => exact hf a
  | call _ _ next ih =>
    refine ⟨fun fault => ?_, fun reply => ih reply (hx.2 reply)⟩
    obtain ⟨a, ha, hfa⟩ := hx.1 fault
    obtain ⟨b, hb, hfb⟩ := hfailed a hfa
    refine ⟨b, ?_, hfb⟩
    show (next (.error fault)).bind f = done b
    rw [ha]
    exact hb

end Talk

namespace Script

/-! ### Properties of parts of runs -/

/-- Whether the value that a statement ends the function with has a property. -/
def Flow.Every (Q : Datum → Prop) : Flow → Prop
  | .next => True
  | .return value => Q value

namespace Eval

variable {α β : Type}

/-- Whether a property of parts of runs and of the values that they give is one of all runs in which all
data have the property `Q`. -/
structure Closed (Q : Datum → Prop) (C : (α : Type) → (α → Prop) → Eval α → Prop) : Prop where
  /-- Scripts keep the property of data. -/
  kept : Datum.IsKept Q
  /-- It holds of what gives a value as required. -/
  pure {α : Type} {P : α → Prop} {a : α} (h : P a) : C α P (pure a)
  /-- It holds of what fails. -/
  throw {α : Type} {P : α → Prop} (failure : Failure) : C α P (throw failure)
  /-- It holds of two parts one after the other. -/
  bind {α β : Type} {P : α → Prop} {R : β → Prop} {x : Eval α} {f : α → Eval β} (hx : C α P x)
    (hf : ∀ a, P a → C β R (f a)) : C β R (x >>= f)
  /-- It holds of reading the store, of which all that is found in it has the property of data. -/
  get : C Store (fun store => ∀ scope name v, store.lookup? scope name = some v → Q v) get
  /-- It holds of opening a scope. -/
  openScope (scope : ScopeId) : C ScopeId (fun _ => True) (openScope scope)
  /-- It holds of binding a name. -/
  define (scope : ScopeId) (name : String) {value : Datum} (hv : Q value) (mutable : Bool) :
    C Unit (fun _ => True) (define scope name value mutable)
  /-- It holds of assigning to a name. -/
  assign (scope : ScopeId) (name : String) {value : Datum} (hv : Q value) :
    C Unit (fun _ => True) (assign scope name value)
  /-- It holds of making a function. -/
  makeClosure (scope : ScopeId) (function : Function) : C Datum Q (makeClosure scope function)
  /-- It holds of a part that is counted. -/
  counted {α : Type} {P : α → Prop} {part : Eval α} (h : C α P part) : C α P (counted part)
  /-- It holds of calls to other functions. -/
  callBack {arguments : List Datum} (ha : ∀ x ∈ arguments, Q x) : C Datum Q (callBack arguments)

end Eval

/-- Whether a property of parts of runs is one of all calls with data that have the property `Q`. -/
def Caller.Has (Q : Datum → Prop) (C : (α : Type) → (α → Prop) → Eval α → Prop) (call : Caller) :
    Prop :=
  ∀ callee arguments, (∀ x ∈ arguments, Q x) → C Datum Q (call callee arguments)

namespace Eval

variable {α β : Type} {Q : Datum → Prop} {C : (α : Type) → (α → Prop) → Eval α → Prop}

namespace Closed

theorem fail (h : Closed Q C) {P : α → Prop} (error : RuntimeError) : C α P (Eval.fail error) :=
  h.throw _

theorem ofExcept (h : Closed Q C) {P : α → Prop} {x : Except RuntimeError α}
    (hx : ∀ a, x = .ok a → P a) : C α P (Eval.ofExcept x) := by
  cases x with
  | ok a => exact h.pure (hx a rfl)
  | error e => exact h.fail e

theorem hoist (h : Closed Q C) (scope : ScopeId) (statements : List Stmt) :
    C Unit (fun _ => True) (hoist scope statements) := by
  induction statements with
  | nil => exact h.pure trivial
  | cons s rest ih =>
    cases s with
    | function f =>
      exact h.bind (h.makeClosure scope f) fun c hc =>
        h.bind (h.define scope f.name hc true) fun _ _ => ih
    | _ => exact ih

theorem bindParameters (h : Closed Q C) (scope : ScopeId) (parameters : List String)
    {arguments : List Datum} (ha : ∀ x ∈ arguments, Q x) :
    C Unit (fun _ => True) (bindParameters scope parameters arguments) := by
  induction parameters generalizing arguments with
  | nil => exact h.pure trivial
  | cons p ps ih =>
    cases arguments with
    | nil => exact h.bind (h.define scope p h.kept.null true) fun _ _ => ih ha
    | cons a as =>
      obtain ⟨hfirst, hrest⟩ := List.forall_mem_cons.mp ha
      exact h.bind (h.define scope p hfirst true) fun _ _ => ih hrest

theorem literal (h : Closed Q C) (l : Literal) : Q l.datum := by
  cases l with
  | int n => exact h.kept.int n
  | text s => exact h.kept.text s
  | bool b => exact h.kept.bool b
  | null => exact h.kept.null

/-! ### Expressions and statements -/

variable {call : Caller}

mutual

/-- Expressions have the property if what they call has it. -/
theorem eval (h : Closed Q C) (hcall : call.Has Q C) (scope : ScopeId) (e : Expr) :
    C Datum Q (eval call scope e) := by
  cases e with
  | literal l =>
    rw [Script.eval]
    exact h.pure (h.literal l)
  | array items =>
    rw [Script.eval]
    exact h.bind (h.evalAll hcall scope items) fun vs hvs => h.pure (h.kept.list hvs)
  | name name =>
    rw [Script.eval]
    refine h.bind h.get fun store hstore => ?_
    split
    · rename_i v hv
      exact h.pure (hstore scope name v hv)
    · exact h.fail _
  | call callee arguments =>
    rw [Script.eval]
    -- Nothing is asked of what is called, since closures are not looked into.
    exact h.bind (h.eval hcall scope callee) fun c _ =>
      h.bind (h.evalAll hcall scope arguments) fun vs hvs => hcall c vs hvs
  | index target position =>
    rw [Script.eval]
    exact h.bind (h.eval hcall scope target) fun t ht =>
      h.bind (h.eval hcall scope position) fun p _ =>
        h.ofExcept fun _ hd => h.kept.index ht hd
  | member target property =>
    rw [Script.eval]
    exact h.bind (h.eval hcall scope target) fun t ht =>
      h.ofExcept fun _ hd => h.kept.member ht hd
  | unary op operand =>
    cases op with
    | not =>
      rw [Script.eval]
      exact h.bind (h.eval hcall scope operand) fun v _ => h.pure (h.kept.bool _)
    | neg =>
      rw [Script.eval]
      exact h.bind (h.eval hcall scope operand) fun v _ =>
        h.ofExcept fun _ hd => h.kept.negate hd
  | binary op left right =>
    rw [Script.eval]
    exact h.bind (h.eval hcall scope left) fun a ha =>
      h.bind (h.eval hcall scope right) fun b hb =>
        h.ofExcept fun _ hd => h.kept.binary ha hb hd
  | logical op left right =>
    rw [Script.eval]
    refine h.bind (h.eval hcall scope left) fun v hv => ?_
    split
    · exact h.pure hv
    · exact h.pure hv
    · exact h.eval hcall scope right
  | conditional condition yes no =>
    rw [Script.eval]
    refine h.bind (h.eval hcall scope condition) fun v _ => ?_
    split
    · exact h.eval hcall scope yes
    · exact h.eval hcall scope no
  | function f =>
    rw [Script.eval]
    exact h.makeClosure scope f

theorem evalAll (h : Closed Q C) (hcall : call.Has Q C) (scope : ScopeId) (es : List Expr) :
    C (List Datum) (fun vs => ∀ v ∈ vs, Q v) (evalAll call scope es) := by
  cases es with
  | nil =>
    rw [Script.evalAll]
    exact h.pure (by rintro _ ⟨⟩)
  | cons e rest =>
    rw [Script.evalAll]
    exact h.bind (h.eval hcall scope e) fun v hv =>
      h.bind (h.evalAll hcall scope rest) fun vs hvs =>
        h.pure (List.forall_mem_cons.mpr ⟨hv, hvs⟩)

end

theorem evalOption (h : Closed Q C) (hcall : call.Has Q C) (scope : ScopeId) (e : Option Expr) :
    C Datum Q (evalOption call scope e) := by
  cases e with
  | none => exact h.pure h.kept.null
  | some e => exact h.eval hcall scope e

theorem untilReturn (h : Closed Q C) {f : Datum → Eval Flow}
    (hf : ∀ x, Q x → C Flow (Flow.Every Q) (f x)) {xs : List Datum} (hxs : ∀ x ∈ xs, Q x) :
    C Flow (Flow.Every Q) (untilReturn f xs) := by
  induction xs with
  | nil => exact h.pure trivial
  | cons x rest ih =>
    obtain ⟨hx, hrest⟩ := List.forall_mem_cons.mp hxs
    refine h.bind (hf x hx) fun flow hflow => ?_
    cases flow with
    | next => exact ih hrest
    | «return» value => exact h.pure hflow

mutual

/-- Statements have the property if what they call has it. -/
theorem exec (h : Closed Q C) (hcall : call.Has Q C) (scope : ScopeId) (s : Stmt) :
    C Flow (Flow.Every Q) (exec call scope s) := by
  cases s with
  | bind name mutable value =>
    rw [Script.exec]
    exact h.bind (h.evalOption hcall scope value) fun v hv =>
      h.bind (h.define scope name hv mutable) fun _ _ => h.pure trivial
  | assign name value =>
    rw [Script.exec]
    exact h.bind (h.eval hcall scope value) fun v hv =>
      h.bind (h.assign scope name hv) fun _ _ => h.pure trivial
  | «return» value =>
    rw [Script.exec]
    exact h.bind (h.evalOption hcall scope value) fun v hv => h.pure hv
  | branch condition yes no =>
    rw [exec.eq_def]
    refine h.bind (h.eval hcall scope condition) fun v _ => ?_
    split
    · exact h.bind (h.openScope scope) fun inner _ => h.execScoped hcall inner yes
    · cases no with
      | none => exact h.pure trivial
      | some no => exact h.bind (h.openScope scope) fun inner _ => h.execScoped hcall inner no
  | each name elements body =>
    rw [Script.exec]
    refine h.bind (h.eval hcall scope elements) fun v hv => ?_
    refine h.bind (h.ofExcept fun xs hxs => h.kept.elements hv hxs) fun xs hxs => ?_
    exact h.untilReturn (fun x hx => h.bind (h.openScope scope) fun inner _ =>
      h.bind (h.define inner name hx false) fun _ _ => h.execScoped hcall inner body) hxs
  | throw value =>
    rw [Script.exec]
    exact h.bind (h.eval hcall scope value) fun v _ => h.throw _
  | function f =>
    rw [Script.exec]
    exact h.pure trivial
  | block statements =>
    rw [Script.exec]
    exact h.bind (h.openScope scope) fun inner _ => h.execScoped hcall inner statements
  | expr value =>
    rw [Script.exec]
    exact h.bind (h.eval hcall scope value) fun _ _ => h.pure trivial

theorem execScoped (h : Closed Q C) (hcall : call.Has Q C) (scope : ScopeId) (statements : List Stmt) :
    C Flow (Flow.Every Q) (execScoped call scope statements) := by
  rw [Script.execScoped]
  exact h.bind (h.hoist scope statements) fun _ _ => h.execAll hcall scope statements

theorem execAll (h : Closed Q C) (hcall : call.Has Q C) (scope : ScopeId) (statements : List Stmt) :
    C Flow (Flow.Every Q) (execAll call scope statements) := by
  cases statements with
  | nil =>
    rw [Script.execAll]
    exact h.pure trivial
  | cons s rest =>
    rw [Script.execAll]
    refine h.bind (h.exec hcall scope s) fun flow hflow => ?_
    cases flow with
    | next => exact h.execAll hcall scope rest
    | «return» value => exact h.pure hflow

end

/-! ### Calls -/

theorem enter (h : Closed Q C) (hcall : call.Has Q C) (closure : Closure) {arguments : List Datum}
    (ha : ∀ x ∈ arguments, Q x) : C Datum Q (enter call closure arguments) := by
  refine h.bind (h.openScope closure.scope) fun scope _ => ?_
  refine h.bind (h.bindParameters scope _ ha) fun _ _ => ?_
  split
  · exact h.eval hcall scope _
  · refine h.bind (h.execScoped hcall scope _) fun flow hflow => ?_
    cases flow with
    | next => exact h.pure h.kept.null
    | «return» value => exact h.pure hflow

/-- Calling a value has the property, by induction on how many calls may be nested. -/
theorem callWithin (h : Closed Q C) (spare : Nat) : (callWithin spare).Has Q C := by
  induction spare with
  | zero =>
    intro callee arguments ha
    rw [callWithin.eq_def]
    split
    · exact h.callBack ha
    · exact h.ofExcept fun _ hd => h.kept.apply ha hd
    · exact h.fail _
    · contradiction
    · exact h.fail _
  | succ spare ih =>
    intro callee arguments ha
    rw [callWithin.eq_def]
    split
    · exact h.callBack ha
    · exact h.ofExcept fun _ hd => h.kept.apply ha hd
    · contradiction
    · rename_i hspare
      obtain rfl := Nat.succ.inj hspare
      exact h.counted (h.enter ih _ ha)
    · exact h.fail _

/-- Every run has the property. -/
theorem runProgram (h : Closed Q C) (program : Program) (name : String) {arguments : List Datum}
    (ha : ∀ x ∈ arguments, Q x) : C Datum Q (runProgram program name arguments) := by
  have hbuiltins : ∀ bs : List Builtin, C PUnit (fun _ => True) (forIn bs PUnit.unit fun b _ => do
      Eval.define Store.globals b.name (.builtin b) true
      Pure.pure (ForInStep.yield PUnit.unit)) := by
    intro bs
    induction bs with
    | nil => exact h.pure trivial
    | cons b bs ih =>
      rw [List.forIn_cons]
      have round : C (ForInStep PUnit) (fun r => r = .yield PUnit.unit) (do
          Eval.define Store.globals b.name (.builtin b) true
          Pure.pure (ForInStep.yield PUnit.unit)) :=
        h.bind (h.define _ _ (h.kept.builtin b) _) fun _ _ => h.pure rfl
      refine h.bind round fun r hr => ?_
      -- Every round goes on to the next.
      obtain rfl : r = _ := hr
      exact ih
  have hcall := h.callWithin maxCalls
  -- Before the script runs, the functions that every script has are bound.
  refine h.bind (hbuiltins Builtin.all) fun _ _ => ?_
  refine h.bind (h.execScoped hcall _ program) fun flow hflow => ?_
  cases flow with
  | «return» value => exact h.fail _
  | next =>
    refine h.bind h.get fun store _ => ?_
    split
    · exact hcall _ _ ha
    · exact hcall _ _ ha
    · exact h.fail _
    · exact h.fail _

end Closed

/-! ### Properties that do not look at values -/

theorem map_counted (f : α → β) (part : Eval α) : f <$> counted part = counted (f <$> part) := by
  rw [← bind_pure_comp, ← bind_pure_comp]
  refine ExceptT.ext (StateT.ext fun s => ?_)
  simp only [run_bind, run_counted, bind_assoc]
  refine congrArg _ (funext ?_)
  rintro ⟨result, s'⟩
  cases result <;> rfl

/-- Whether a property of parts of runs, whatever values they give, is one of all runs. -/
structure ClosedAny (C : (α : Type) → Eval α → Prop) : Prop where
  /-- It holds of what gives a value. -/
  pure {α : Type} (a : α) : C α (pure a)
  /-- It holds of what fails. -/
  throw {α : Type} (failure : Failure) : C α (throw failure)
  /-- It holds of two parts one after the other. -/
  bind {α β : Type} {x : Eval α} {f : α → Eval β} (hx : C α x) (hf : ∀ a, C β (f a)) : C β (x >>= f)
  /-- It holds of reading the store. -/
  get : C Store get
  /-- It holds of opening a scope. -/
  openScope (scope : ScopeId) : C ScopeId (openScope scope)
  /-- It holds of binding a name. -/
  define (scope : ScopeId) (name : String) (value : Datum) (mutable : Bool) :
    C Unit (define scope name value mutable)
  /-- It holds of assigning to a name. -/
  assign (scope : ScopeId) (name : String) (value : Datum) : C Unit (assign scope name value)
  /-- It holds of making a function. -/
  makeClosure (scope : ScopeId) (function : Function) : C Datum (makeClosure scope function)
  /-- It holds of a part that is counted. -/
  counted {α : Type} {part : Eval α} (h : C α part) : C α (counted part)
  /-- It holds of calls to other functions. -/
  callBack (arguments : List Datum) : C Datum (callBack arguments)

namespace ClosedAny

variable {C : (α : Type) → Eval α → Prop}

theorem map (h : ClosedAny C) (f : α → β) {x : Eval α} (hx : C α x) : C β (f <$> x) := by
  rw [← bind_pure_comp]
  exact h.bind hx fun a => h.pure _

/-- What is asked of a value is part of it where the values are those as required. -/
theorem closed (h : ClosedAny C) : Closed (fun _ => True) fun _ P x =>
    ∃ y : Eval (Subtype P), C _ y ∧ Subtype.val <$> y = x := by
  have of_trivial : ∀ {γ : Type} {P : γ → Prop} {x : Eval γ}, (∀ a, P a) → C γ x →
      ∃ y : Eval (Subtype P), C _ y ∧ Subtype.val <$> y = x := fun {_ _ x} hP hx =>
    ⟨(fun a => ⟨a, hP a⟩) <$> x, h.map _ hx, by rw [Functor.map_map]; exact id_map x⟩
  exact
    { kept := Datum.isKept_true
      pure hP := ⟨Pure.pure ⟨_, hP⟩, h.pure _, map_pure _ _⟩
      throw failure := ⟨MonadExcept.throw failure, h.throw _, rfl⟩
      bind := by
        rintro _ _ P R _ f ⟨y, hy, rfl⟩ hf
        choose z hz hzf using hf
        refine ⟨y >>= fun a => z a.1 a.2, h.bind hy fun a => hz a.1 a.2, ?_⟩
        rw [map_bind, bind_map_left]
        simp only [hzf]
      get := of_trivial (fun _ _ _ _ _ => trivial) h.get
      openScope scope := of_trivial (fun _ => trivial) (h.openScope scope)
      define scope name _ _ mutable := of_trivial (fun _ => trivial) (h.define scope name _ mutable)
      assign scope name _ _ := of_trivial (fun _ => trivial) (h.assign scope name _)
      makeClosure scope function := of_trivial (fun _ => trivial) (h.makeClosure scope function)
      counted := by
        rintro _ P _ ⟨y, hy, rfl⟩
        exact ⟨Eval.counted y, h.counted hy, map_counted _ y⟩
      callBack _ := of_trivial (fun _ => trivial) (h.callBack _) }

/-- Every run has the property. -/
theorem runProgram (h : ClosedAny C) (program : Program) (name : String) (arguments : List Datum) :
    C Datum (runProgram program name arguments) := by
  obtain ⟨y, hy, heq⟩ := h.closed.runProgram program name
    fun x (_ : x ∈ arguments) => trivial
  exact heq ▸ h.map _ hy

end ClosedAny

/-! ### No failure is caught -/

/-- Whether the result of a part of a run is a failure. -/
def HasFailed (r : Except Failure α × Store) : Prop := ∃ failure, r.1 = .error failure

/-- Whether a part of a run is over when one of its calls has failed. -/
def Stops (α : Type) (x : Eval α) : Prop :=
  ∀ s, (x.run.run s : Talk (Except Failure α × Store)).StopsOnFault HasFailed

/-- The function and the arguments of a call to another function. -/
def calledBack? : List Datum → Option (String × List Datum)
  | .text id :: rest => some (id, rest)
  | .reference id :: rest => some (id, rest)
  | _ => none

/-- A call to another function is one, unless its arguments cannot be passed on. -/
theorem run_callBack (arguments : List Datum) (store : Store) :
    ((callBack arguments).run.run store : Talk (Except Failure Datum × Store)) =
      match calledBack? arguments with
      | none =>
        .done (.error (.runtime (.badArguments .call "a function id as its first argument")), store)
      | some (id, rest) =>
        match Datum.toItems rest with
        | .error cause => .done (.error (.runtime (.notPassable id cause)), store)
        | .ok values => .call id values fun reply => .done
          (match reply with
            | .ok value => .ok (.ofValue value)
            | .error fault => .error (.callback fault), store) := by
  have hcalled : callBack arguments = (do
      let called ← match calledBack? arguments with
        | none => Eval.fail (.badArguments .call "a function id as its first argument")
        | some called => pure called
      match Datum.toItems called.2 with
      | .error cause => Eval.fail (.notPassable called.1 cause)
      | .ok values =>
        match ← (Talk.ask called.1 values : Talk _) with
        | .ok value => pure (.ofValue value)
        | .error fault => throw (.callback fault)) := by
    cases arguments with
    | nil => rfl
    | cons d rest => cases d <;> rfl
  rw [hcalled]
  cases calledBack? arguments with
  | none => rfl
  | some called =>
    obtain ⟨id, rest⟩ := called
    simp only [pure_bind]
    cases Datum.toItems rest with
    | error cause => rfl
    | ok values =>
      refine congrArg (Talk.call id values) (funext fun reply => ?_)
      cases reply <;> rfl

theorem stops_callBack (arguments : List Datum) : Stops Datum (callBack arguments) := by
  intro store
  rw [run_callBack]
  split
  · trivial
  · split
    · trivial
    · exact ⟨fun fault => ⟨_, rfl, _, rfl⟩, fun _ => trivial⟩

theorem Stops.bind {x : Eval α} {f : α → Eval β} (hx : Stops α x) (hf : ∀ a, Stops β (f a)) :
    Stops β (x >>= f) := by
  intro s
  rw [run_bind]
  refine (hx s).bind ?_ ?_
  · rintro ⟨_, s'⟩ ⟨failure, rfl⟩
    exact ⟨_, rfl, failure, rfl⟩
  · rintro ⟨result, s'⟩
    cases result with
    | ok a => exact hf a s'
    | error failure => trivial

theorem closed_stops : ClosedAny Stops where
  pure _ _ := trivial
  throw _ _ := trivial
  bind := Stops.bind
  get _ := trivial
  openScope _ _ := trivial
  define scope name value mutable := by
    refine Stops.bind (fun _ => trivial) fun store => ?_
    split <;> exact fun _ => trivial
  assign scope name value := by
    refine Stops.bind (fun _ => trivial) fun store => ?_
    split
    · exact fun _ => trivial
    · split <;> exact fun _ => trivial
  makeClosure _ _ _ := trivial
  counted h s := by
    rw [run_counted]
    refine (h _).bind ?_ fun _ => trivial
    rintro ⟨_, s'⟩ ⟨failure, rfl⟩
    exact ⟨_, rfl, failure, rfl⟩
  callBack := stops_callBack

end Eval

/-- A run of a script is over, with a fault, when one of its calls has failed. -/
theorem invoke_stopsOnFault (program : Program) (name : String) (arguments : List Value) :
    (invoke program name arguments).StopsOnFault fun r => ∃ fault, r = .error fault := by
  refine (Eval.closed_stops.runProgram program name _ Store.initial).bind ?_ ?_
  · rintro ⟨_, s⟩ ⟨failure, rfl⟩
    exact ⟨_, rfl, _, rfl⟩
  · rintro ⟨result, s⟩
    cases result with
    | error failure => trivial
    | ok v => cases h : v.toValue <;> simp [h, Talk.StopsOnFault, pure]

end Script

end Polyglot
