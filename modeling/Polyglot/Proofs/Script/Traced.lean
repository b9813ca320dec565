import Polyglot.Proofs.Script.Closed
import Polyglot.Proofs.Script.Course

/-!
# The course of a run

What a run does is written down by running the script into courses: expressions (`Course.eval`),
statements (`Course.exec`), calls (`Course.callWithin`) and whole scripts (`Course.runProgram`) by the
same recursions as those that run them, with an act for everything that is done to the scopes.  So the
course is a function of the script and its arguments, and each act in it has the scope that its statement
runs in.

Doing what the course says is the run itself (`Course.shows_runProgram`): this holds of the parts that
runs are put together from, then of each expression (`Course.shows_eval`) and each statement
(`Course.shows_exec`) if it holds of what they call, and so of calls by induction on how many may be
nested (`Course.shows_callWithin`).
-/

namespace Polyglot.Script

namespace Course

variable {α β : Type}

/-! ### Parts of courses -/

/-- Ends the course with a runtime error. -/
def fail (error : RuntimeError) : Course α := done (.error (.runtime error))

/-- The result of an operation that may fail. -/
def ofExcept : Except RuntimeError α → Course α
  | .ok a => pure a
  | .error e => fail e

/-- The store at this moment. -/
def now : Course Store := look pure

/-- Does an act; the course fails that cannot do it. -/
def perform (a : Act) : Course Unit := act a fun outcome => done (outcome.mapError .runtime)

/-- Opens a scope inside another. -/
def openScope (scope : ScopeId) : Course ScopeId := do
  let store ← now
  perform (.openScope scope)
  pure (store.openScope scope).1

/-- Makes a function of a declaration. -/
def makeClosure (scope : ScopeId) (function : Function) : Course Datum := do
  let store ← now
  perform (.makeClosure scope function)
  pure (.closure (store.makeClosure scope function).1)

/-- A course with one more function counted as running. -/
def counted (part : Course α) : Course α :=
  act (.countActive (· + 1)) fun _ => part.andThen fun result =>
    act (.countActive (· - 1)) fun _ => done result

/-- Does something for each element until it ends the function. -/
def untilReturn (f : Datum → Course Flow) : List Datum → Course Flow
  | [] => pure .next
  | x :: xs => do
    match ← f x with
    | .next => untilReturn f xs
    | .return value => pure (.return value)

/-- Binds the functions that a block declares. -/
def hoist (scope : ScopeId) : List Stmt → Course Unit
  | [] => pure ()
  | .function f :: rest => do
    perform (.define .function scope f.name (← makeClosure scope f))
    hoist scope rest
  | _ :: rest => hoist scope rest

/-- Binds parameters to arguments, and to null where there are none. -/
def bindParameters (scope : ScopeId) : List String → List Datum → Course Unit
  | [], _ => pure ()
  | p :: ps, arguments => do
    perform (.define .parameter scope p (arguments.headD .null))
    bindParameters scope ps arguments.tail

/-- Asks for the evaluation of another function. -/
def callBack (arguments : List Datum) : Course Datum :=
  match Eval.calledBack? arguments with
  | none => fail (.badArguments .call "a function id as its first argument")
  | some (function, arguments) =>
    match Datum.toItems arguments with
    | .error cause => fail (.notPassable function cause)
    | .ok values => call function values fun reply =>
      done ((reply.map .ofValue).mapError .callback)

/-! ### Expressions and statements -/

/-- What a call of a value with arguments does. -/
abbrev Caller := Datum → List Datum → Course Datum

mutual

/-- What is done for the value of an expression. -/
def eval (call : Caller) (scope : ScopeId) : Expr → Course Datum
  | .literal l => pure l.datum
  | .array items => do pure (.list (← evalAll call scope items))
  | .name name => do
    match (← now).lookup? scope name with
    | some v => pure v
    | none => fail (.undefined name)
  | .call callee arguments => do
    let callee ← eval call scope callee
    let arguments ← evalAll call scope arguments
    call callee arguments
  | .index target position => do
    let target ← eval call scope target
    let position ← eval call scope position
    ofExcept (target.index position)
  | .member target property => do
    let target ← eval call scope target
    ofExcept (target.member property)
  | .unary .not operand => do
    let v ← eval call scope operand
    pure (.bool !v.isTruthy)
  | .unary .neg operand => do
    let v ← eval call scope operand
    ofExcept v.negate
  | .binary op left right => do
    let left ← eval call scope left
    let right ← eval call scope right
    ofExcept (Datum.binary op left right)
  | .logical op left right => do
    let v ← eval call scope left
    match op, v.isTruthy with
    | .and, false => pure v
    | .or, true => pure v
    | _, _ => eval call scope right
  | .conditional condition yes no => do
    if (← eval call scope condition).isTruthy then eval call scope yes else eval call scope no
  | .function f => makeClosure scope f

/-- What is done for the values of expressions, from the left. -/
def evalAll (call : Caller) (scope : ScopeId) : List Expr → Course (List Datum)
  | [] => pure []
  | e :: es => do
    let v ← eval call scope e
    let vs ← evalAll call scope es
    pure (v :: vs)

/-- What is done for the value of an expression, if there is one. -/
def evalOption (call : Caller) (scope : ScopeId) : Option Expr → Course Datum
  | none => pure .null
  | some e => eval call scope e

end

mutual

/-- What a statement does that runs in a scope. -/
def exec (call : Caller) (scope : ScopeId) : Stmt → Course Flow
  | .bind name mutable value => do
    perform (.define (.ofMutable mutable) scope name (← evalOption call scope value))
    pure .next
  | .assign name value => do
    perform (.assign scope name (← eval call scope value))
    pure .next
  | .return value => do pure (.return (← evalOption call scope value))
  | .branch condition yes no => do
    if (← eval call scope condition).isTruthy then
      execScoped call (← openScope scope) yes
    else
      match no with
      | some no => do execScoped call (← openScope scope) no
      | none => pure .next
  | .each name elements body => do
    let elements ← ofExcept (← eval call scope elements).elements
    untilReturn (fun element => do
      let inner ← openScope scope
      perform (.define .loop inner name element)
      execScoped call inner body) elements
  | .throw value => do done (.error (.thrown (← eval call scope value).toText))
  | .function _ => pure .next
  | .block statements => do execScoped call (← openScope scope) statements
  | .expr value => do
    let _ ← eval call scope value
    pure .next

/-- What the statements of a block do in its scope. -/
def execScoped (call : Caller) (scope : ScopeId) (statements : List Stmt) : Course Flow := do
  hoist scope statements
  execAll call scope statements

/-- What statements do until one ends the function. -/
def execAll (call : Caller) (scope : ScopeId) : List Stmt → Course Flow
  | [] => pure .next
  | s :: rest => do
    match ← exec call scope s with
    | .next => execAll call scope rest
    | .return value => pure (.return value)

end

/-! ### Calls and whole scripts -/

/-- What a function of the script does: its parameters and its statements are in a scope that is opened
inside the one in which the function was made. -/
def enter (call : Caller) (closure : Closure) (arguments : List Datum) : Course Datum := do
  let scope ← openScope closure.scope
  bindParameters scope closure.function.parameters arguments
  match closure.function.body with
  | .expr value => eval call scope value
  | .block statements =>
    match ← execScoped call scope statements with
    | .return value => pure value
    | .next => pure .null

/-- What a call of a value does, when the given number of functions may still run inside one another. -/
def callWithin : (spare : Nat) → Caller
  | _, .builtin .call, arguments => callBack arguments
  | _, .builtin b, arguments => ofExcept (Datum.apply b arguments)
  | 0, .closure _, _ => fail (.tooManyCalls maxCalls)
  | spare + 1, .closure closure, arguments => counted (enter (callWithin spare) closure arguments)
  | _, other, _ => fail (.notCallable other.kind)

/-- Binds the functions that every script has. -/
def bindBuiltins : List Builtin → Course Unit
  | [] => pure ()
  | b :: bs => do
    perform (.define .builtin Store.globals b.name (.builtin b))
    bindBuiltins bs

/-- What a script does, and then the call to its function of the given name. -/
def runProgram (program : Program) (name : String) (arguments : List Datum) : Course Datum := do
  bindBuiltins Builtin.all
  match ← execScoped (callWithin maxCalls) Store.globals program with
  | .return _ => fail .returnAtTopLevel
  | .next =>
    match (← now).lookup? Store.globals name with
    | some (.closure c) => callWithin maxCalls (.closure c) arguments
    | some (.builtin b) => callWithin maxCalls (.builtin b) arguments
    | some other => fail (.notTheFunction name other.kind)
    | none => fail (.missingFunction name)

/-! ### Courses show what runs do -/

/-- Whether doing what a course says is what a part of a run does. -/
def Shows (course : Course α) (x : Eval α) : Prop :=
  ∀ store, (x.run.run store : Talk (Except Failure α × Store)) = course.run store

theorem shows_pure (a : α) : (pure a : Course α).Shows (pure a) := fun _ => rfl

theorem shows_fail (error : RuntimeError) : (fail error : Course α).Shows (Eval.fail error) :=
  fun _ => rfl

theorem shows_ofExcept (x : Except RuntimeError α) : (ofExcept x).Shows (Eval.ofExcept x) := by
  cases x with
  | ok a => exact shows_pure a
  | error e => exact shows_fail e

theorem Shows.bind {course : Course α} {x : Eval α} {f : α → Course β} {g : α → Eval β}
    (hx : course.Shows x) (hf : ∀ a, (f a).Shows (g a)) : (course >>= f).Shows (x >>= g) := by
  intro store
  show _ = (course.andThen _).run store
  rw [Eval.run_bind, run_andThen, hx]
  refine congrArg _ (funext ?_)
  rintro ⟨result, later⟩
  cases result with
  | ok a => exact hf a later
  | error failure => rfl

theorem shows_now : now.Shows get := fun _ => rfl

theorem shows_perform (a : Act) : (perform a).Shows (Eval.act a) := by
  intro store
  have hget : ∀ f : Store → Eval Unit, (get >>= f).run.run store = (f store).run.run store :=
    fun _ => rfl
  rw [perform, run, Eval.act, hget]
  cases a.perform store <;> rfl

theorem shows_define (declaration : Declaration) (scope : ScopeId) (name : String) (value : Datum) :
    (perform (.define declaration scope name value)).Shows
      (Eval.define scope name value declaration.mutable) := by
  rw [Eval.define_eq_act]
  exact shows_perform _

theorem shows_assign (scope : ScopeId) (name : String) (value : Datum) :
    (perform (.assign scope name value)).Shows (Eval.assign scope name value) := by
  rw [Eval.assign_eq_act]
  exact shows_perform _

theorem shows_openScope (scope : ScopeId) : (openScope scope).Shows (Eval.openScope scope) :=
  fun _ => rfl

theorem shows_makeClosure (scope : ScopeId) (function : Function) :
    (makeClosure scope function).Shows (Eval.makeClosure scope function) :=
  fun _ => rfl

theorem Shows.counted {course : Course α} {part : Eval α} (h : course.Shows part) :
    course.counted.Shows (Eval.counted part) := by
  intro store
  rw [Eval.run_counted, h]
  exact (run_andThen course (fun result => act (.countActive (· - 1)) fun _ => done result)
    { store with active := store.active + 1 }).symm

theorem shows_callBack (arguments : List Datum) :
    (callBack arguments).Shows (Script.callBack arguments) := by
  intro store
  rw [Eval.run_callBack, callBack]
  cases Eval.calledBack? arguments with
  | none => rfl
  | some called =>
    obtain ⟨id, rest⟩ := called
    cases hvalues : Datum.toItems rest with
    | error cause =>
      simp only [hvalues]
      rfl
    | ok values =>
      simp only [hvalues]
      exact congrArg (Talk.call id values) (funext fun reply => by cases reply <;> rfl)

theorem shows_untilReturn {f : Datum → Course Flow} {g : Datum → Eval Flow}
    (hf : ∀ x, (f x).Shows (g x)) (xs : List Datum) :
    (untilReturn f xs).Shows (Script.untilReturn g xs) := by
  induction xs with
  | nil => exact shows_pure _
  | cons x rest ih =>
    refine (hf x).bind fun flow => ?_
    cases flow with
    | next => exact ih
    | «return» value => exact shows_pure _

theorem shows_hoist (scope : ScopeId) (statements : List Stmt) :
    (hoist scope statements).Shows (Script.hoist scope statements) := by
  induction statements with
  | nil => exact shows_pure _
  | cons s rest ih =>
    cases s with
    | function f =>
      exact (shows_makeClosure scope f).bind fun c =>
        (shows_define .function scope f.name c).bind fun _ => ih
    | _ => exact ih

theorem shows_bindParameters (scope : ScopeId) (parameters : List String) (arguments : List Datum) :
    (bindParameters scope parameters arguments).Shows
      (Script.bindParameters scope parameters arguments) := by
  induction parameters generalizing arguments with
  | nil => exact shows_pure _
  | cons p ps ih =>
    cases arguments with
    | nil => exact (shows_define .parameter scope p .null).bind fun _ => ih []
    | cons a as => exact (shows_define .parameter scope p a).bind fun _ => ih as

/-- Whether the courses of calls are what calls do. -/
def Caller.Shows (call : Caller) (called : Script.Caller) : Prop :=
  ∀ callee arguments, (call callee arguments).Shows (called callee arguments)

variable {call : Caller} {called : Script.Caller}

mutual

/-- The course of an expression is shown if those of calls are. -/
theorem shows_eval (h : call.Shows called)
    (scope : ScopeId) (e : Expr) : (eval call scope e).Shows (Script.eval called scope e) := by
  cases e with
  | literal l =>
    rw [eval, Script.eval]
    exact shows_pure _
  | array items =>
    rw [eval, Script.eval]
    exact (shows_evalAll h scope items).bind fun vs => shows_pure _
  | name name =>
    rw [eval, Script.eval]
    refine shows_now.bind fun store => ?_
    cases store.lookup? scope name with
    | some v => exact shows_pure v
    | none => exact shows_fail _
  | call callee arguments =>
    rw [eval, Script.eval]
    exact (shows_eval h scope callee).bind fun c =>
      (shows_evalAll h scope arguments).bind fun vs => h c vs
  | index target position =>
    rw [eval, Script.eval]
    exact (shows_eval h scope target).bind fun t =>
      (shows_eval h scope position).bind fun p => shows_ofExcept _
  | member target property =>
    rw [eval, Script.eval]
    exact (shows_eval h scope target).bind fun t => shows_ofExcept _
  | unary op operand =>
    cases op with
    | not =>
      rw [eval, Script.eval]
      exact (shows_eval h scope operand).bind fun v => shows_pure _
    | neg =>
      rw [eval, Script.eval]
      exact (shows_eval h scope operand).bind fun v => shows_ofExcept _
  | binary op left right =>
    rw [eval, Script.eval]
    exact (shows_eval h scope left).bind fun a =>
      (shows_eval h scope right).bind fun b => shows_ofExcept _
  | logical op left right =>
    rw [eval, Script.eval]
    refine (shows_eval h scope left).bind fun v => ?_
    cases op <;> cases v.isTruthy
    · exact shows_pure v
    · exact shows_eval h scope right
    · exact shows_eval h scope right
    · exact shows_pure v
  | conditional condition yes no =>
    rw [eval, Script.eval]
    refine (shows_eval h scope condition).bind fun v => ?_
    split
    · exact shows_eval h scope yes
    · exact shows_eval h scope no
  | function f =>
    rw [eval, Script.eval]
    exact shows_makeClosure scope f

theorem shows_evalAll (h : call.Shows called)
    (scope : ScopeId) (es : List Expr) :
    (evalAll call scope es).Shows (Script.evalAll called scope es) := by
  cases es with
  | nil =>
    rw [evalAll, Script.evalAll]
    exact shows_pure _
  | cons e rest =>
    rw [evalAll, Script.evalAll]
    exact (shows_eval h scope e).bind fun v =>
      (shows_evalAll h scope rest).bind fun vs => shows_pure _

end

theorem shows_evalOption (h : call.Shows called) (scope : ScopeId) (e : Option Expr) :
    (evalOption call scope e).Shows (Script.evalOption called scope e) := by
  cases e with
  | none => exact shows_pure _
  | some e => exact shows_eval h scope e

mutual

/-- The course of a statement is shown if those of calls are. -/
theorem shows_exec (h : call.Shows called)
    (scope : ScopeId) (s : Stmt) : (exec call scope s).Shows (Script.exec called scope s) := by
  cases s with
  | bind name mutable value =>
    rw [exec, Script.exec]
    refine (shows_evalOption h scope value).bind fun v => ?_
    have hdefine := shows_define (.ofMutable mutable) scope name v
    rw [Declaration.mutable_ofMutable] at hdefine
    exact hdefine.bind fun _ => shows_pure _
  | assign name value =>
    rw [exec, Script.exec]
    exact (shows_eval h scope value).bind fun v =>
      (shows_assign scope name v).bind fun _ => shows_pure _
  | «return» value =>
    rw [exec, Script.exec]
    exact (shows_evalOption h scope value).bind fun v => shows_pure _
  | branch condition yes no =>
    rw [exec.eq_def, Script.exec.eq_def]
    refine (shows_eval h scope condition).bind fun v => ?_
    split
    · exact (shows_openScope scope).bind fun inner => shows_execScoped h inner yes
    · cases no with
      | none => exact shows_pure _
      | some no => exact (shows_openScope scope).bind fun inner => shows_execScoped h inner no
  | each name elements body =>
    rw [exec, Script.exec]
    refine (shows_eval h scope elements).bind fun v => ?_
    refine (shows_ofExcept v.elements).bind fun xs => ?_
    exact shows_untilReturn (fun x => (shows_openScope scope).bind fun inner =>
      (shows_define .loop inner name x).bind fun _ => shows_execScoped h inner body) xs
  | throw value =>
    rw [exec, Script.exec]
    exact (shows_eval h scope value).bind fun v _ => rfl
  | function f =>
    rw [exec, Script.exec]
    exact shows_pure _
  | block statements =>
    rw [exec, Script.exec]
    exact (shows_openScope scope).bind fun inner => shows_execScoped h inner statements
  | expr value =>
    rw [exec, Script.exec]
    exact (shows_eval h scope value).bind fun _ => shows_pure _

theorem shows_execScoped (h : call.Shows called) (scope : ScopeId) (statements : List Stmt) :
    (execScoped call scope statements).Shows (Script.execScoped called scope statements) := by
  rw [execScoped, Script.execScoped]
  exact (shows_hoist scope statements).bind fun _ => shows_execAll h scope statements

theorem shows_execAll (h : call.Shows called) (scope : ScopeId) (statements : List Stmt) :
    (execAll call scope statements).Shows (Script.execAll called scope statements) := by
  cases statements with
  | nil =>
    rw [execAll, Script.execAll]
    exact shows_pure _
  | cons s rest =>
    rw [execAll, Script.execAll]
    refine (shows_exec h scope s).bind fun flow => ?_
    cases flow with
    | next => exact shows_execAll h scope rest
    | «return» value => exact shows_pure _

end

theorem shows_enter (h : call.Shows called)
    (closure : Closure) (arguments : List Datum) :
    (enter call closure arguments).Shows (Script.enter called closure arguments) := by
  refine (shows_openScope closure.scope).bind fun scope => ?_
  refine (shows_bindParameters scope _ arguments).bind fun _ => ?_
  cases closure.function.body with
  | expr value => exact shows_eval h scope value
  | block statements =>
    refine (shows_execScoped h scope statements).bind fun flow => ?_
    cases flow with
    | next => exact shows_pure _
    | «return» value => exact shows_pure _

theorem shows_builtin (spare : Nat) (b : Builtin) (arguments : List Datum) :
    (callWithin spare (.builtin b) arguments).Shows (Script.callWithin spare (.builtin b) arguments) := by
  rw [callWithin.eq_def, Script.callWithin.eq_def]
  cases b with
  | call => exact shows_callBack arguments
  | _ => exact shows_ofExcept _

/-- The course of a call is shown, by induction on how many calls may be nested. -/
theorem shows_callWithin (spare : Nat) : Caller.Shows (callWithin spare) (Script.callWithin spare) := by
  intro callee arguments
  induction spare generalizing callee arguments with
  | zero =>
    cases callee with
    | builtin b => exact shows_builtin 0 b arguments
    | closure c => exact shows_fail _
    | _ => exact shows_fail _
  | succ spare ih =>
    cases callee with
    | builtin b => exact shows_builtin (spare + 1) b arguments
    | closure c => exact (shows_enter ih c arguments).counted
    | _ => exact shows_fail _

theorem shows_bindBuiltins (bs : List Builtin) :
    (bindBuiltins bs).Shows (forIn bs PUnit.unit fun b _ => do
      Eval.define Store.globals b.name (.builtin b) true
      pure (ForInStep.yield PUnit.unit)) := by
  induction bs with
  | nil => exact shows_pure _
  | cons b rest ih =>
    rw [List.forIn_cons, bind_assoc]
    refine (shows_define .builtin Store.globals b.name (.builtin b)).bind fun _ => ?_
    rw [pure_bind]
    exact ih

/-- Doing what the course of a run says is the run. -/
theorem shows_runProgram (program : Program) (name : String) (arguments : List Datum) :
    (runProgram program name arguments).Shows (Script.runProgram program name arguments) := by
  have hcall := shows_callWithin maxCalls
  refine (shows_bindBuiltins Builtin.all).bind fun _ => ?_
  refine (shows_execScoped hcall _ program).bind fun flow => ?_
  cases flow with
  | «return» value => exact shows_fail _
  | next =>
    refine shows_now.bind fun store => ?_
    cases store.lookup? Store.globals name with
    | none => exact shows_fail _
    | some v =>
      cases v with
      | closure c => exact hcall _ arguments
      | builtin b => exact hcall _ arguments
      | _ => exact shows_fail _

end Course

end Polyglot.Script
