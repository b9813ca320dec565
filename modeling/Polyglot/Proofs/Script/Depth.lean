import Polyglot.Proofs.Script.Logic

/-!
# How deeply calls are nested

Functions are values and may call themselves, so nothing in a script bounds how long it runs, except
for the count of functions that are running.  `callCounting` calls values with no other bound: it reads
the count before it runs a function.  Only so that it can be written down, it raises an alarm instead of
running a function inside more others than it is told.  No run ever comes so far: whatever the alarm
does, and as soon as the depth is at least the limit, the run is the one that recurses on the number of
calls left (`runBy_callCounting`).

The proof compares runs from stores with the same count (`Eval.Agree`).  Every part of a run keeps the
count, so parts that agree can be put together.
-/

namespace Polyglot.Script

/-! ### Parts of runs that agree -/

namespace Eval

variable {α β : Type}

/-- What is bound and counted is handed on with each result. -/
theorem run_bind (x : Eval α) (f : α → Eval β) (s : Store) :
    ((x >>= f).run.run s : Talk (Except Failure β × Store)) = x.run.run s >>= fun r =>
      match r.1 with
      | .ok a => (f a).run.run r.2
      | .error failure => pure (.error failure, r.2) := by
  refine congrArg _ (funext ?_)
  rintro ⟨result, s'⟩
  cases result <;> rfl

/-- Whether a part of a run leaves the given number of functions running if they are running when it
starts, also if it fails. -/
abbrev Counts (n : Nat) (x : Eval α) : Prop :=
  Keeps (fun _ => True) (fun s => s.active = n) (fun _ => True) x

/-- Whether two parts of a run do the same when the given number of functions are running, and leave
as many running. -/
structure Agree (n : Nat) (x y : Eval α) : Prop where
  /-- The count is kept. -/
  counts : x.Counts n
  /-- They do the same. -/
  same (s : Store) (hs : s.active = n) :
    (x.run.run s : Talk (Except Failure α × Store)) = y.run.run s

variable {n : Nat}

theorem Agree.refl {x : Eval α} (h : x.Counts n) : Agree n x x :=
  ⟨h, fun _ _ => rfl⟩

theorem Agree.pure (a : α) : Agree n (pure a : Eval α) (pure a) := .refl (.pure trivial)

theorem Agree.throw (failure : Failure) : Agree n (throw failure : Eval α) (throw failure) :=
  .refl (.throw failure)

theorem Agree.fail (error : RuntimeError) : Agree n (fail error : Eval α) (fail error) :=
  .throw _

theorem Agree.ofExcept (x : Except RuntimeError α) : Agree n (ofExcept x) (ofExcept x) :=
  .refl (.ofExcept fun _ _ => trivial)

theorem Agree.bind {x y : Eval α} {f g : α → Eval β} (hx : Agree n x y)
    (hf : ∀ a, Agree n (f a) (g a)) : Agree n (x >>= f) (y >>= g) := by
  refine ⟨hx.counts.bind fun a _ => (hf a).counts, fun s hs => ?_⟩
  rw [run_bind, run_bind, ← hx.same s hs]
  refine (hx.counts s hs).bind_congr ?_
  rintro ⟨result, s'⟩ ⟨hs', -⟩
  cases result with
  | ok a => exact (hf a).same s' hs'
  | error failure => rfl

theorem Agree.get : Agree n (get : Eval Store) get :=
  .refl (Keeps.get.mono fun _ _ => trivial)

theorem Agree.modifyGet {f : Store → α × Store} (h : ∀ s, (f s).2.active = s.active) :
    Agree n (modifyGet f : Eval α) (modifyGet f) :=
  .refl (.modifyGet fun s hs => ⟨trivial, (h s).trans hs⟩)

theorem Agree.modify {f : Store → Store} (h : ∀ s, (f s).active = s.active) :
    Agree n (modify f : Eval Unit) (modify f) :=
  .refl (.modify fun s hs => (h s).trans hs)

theorem Agree.openScope (scope : ScopeId) : Agree n (openScope scope) (openScope scope) :=
  .modifyGet fun _ => rfl

theorem Agree.define (scope : ScopeId) (name : String) (value : Datum) (mutable : Bool) :
    Agree n (define scope name value mutable) (define scope name value mutable) := by
  refine Agree.get.bind fun s => ?_
  split
  · exact .fail _
  · exact .modify fun _ => rfl

theorem Agree.assign (scope : ScopeId) (name : String) (value : Datum) :
    Agree n (assign scope name value) (assign scope name value) := by
  refine Agree.get.bind fun s => ?_
  split
  · exact .fail _
  · split
    · exact .modify fun _ => rfl
    · exact .fail _

theorem Agree.makeClosure (scope : ScopeId) (function : Function) :
    Agree n (makeClosure scope function) (makeClosure scope function) :=
  .refl (.map (P := fun _ => True) (.modifyGet fun _ hs => ⟨trivial, hs⟩) fun _ _ => trivial)

theorem run_observing (part : Eval α) (s : Store) :
    ((counted.observing part).run.run s : Talk (Except Failure (Except Failure α) × Store)) =
      part.run.run s >>= fun r => pure (.ok r.1, r.2) := rfl

/-- A function is counted while it runs, and the count is taken back also if it fails. -/
theorem run_counted (part : Eval α) (s : Store) :
    ((counted part).run.run s : Talk (Except Failure α × Store)) =
      part.run.run { s with active := s.active + 1 } >>= fun r =>
        pure (r.1, { r.2 with active := r.2.active - 1 }) := by
  rw [counted, run_bind]
  change ((counted.observing part >>= _).run.run { s with active := s.active + 1 } : Talk _) = _
  rw [run_bind, run_observing, bind_assoc]
  refine congrArg _ (funext ?_)
  rintro ⟨result, s'⟩
  cases result <;> rfl

theorem Agree.counted {x y : Eval α} (h : Agree (n + 1) x y) :
    Agree n (counted x) (counted y) := by
  refine ⟨fun s hs => ?_, fun s hs => ?_⟩
  · rw [run_counted]
    refine Talk.Ensures.bind (h.counts _ (congrArg (· + 1) hs)) fun r hr => ?_
    exact ⟨congrArg (· - 1) hr.1, fun _ _ => trivial⟩
  · rw [run_counted, run_counted, h.same _ (congrArg (· + 1) hs)]

end Eval

/-! ### What is done without calling a value -/

open Eval (Agree)

section

variable {n : Nat}

theorem hoist_agree (scope : ScopeId) (statements : List Stmt) :
    Agree n (hoist scope statements) (hoist scope statements) := by
  induction statements with
  | nil => exact .pure ()
  | cons s rest ih =>
    cases s with
    | function f =>
      exact (Agree.makeClosure scope f).bind fun c => (Agree.define scope f.name c true).bind
        fun _ => ih
    | _ => exact ih

theorem bindParameters_agree (scope : ScopeId) (parameters : List String)
    (arguments : List Datum) :
    Agree n (bindParameters scope parameters arguments)
      (bindParameters scope parameters arguments) := by
  induction parameters generalizing arguments with
  | nil => exact .pure ()
  | cons p ps ih =>
    cases arguments with
    | nil => exact (Agree.define scope p .null true).bind fun _ => ih []
    | cons a as => exact (Agree.define scope p a true).bind fun _ => ih as

theorem passOn_counts (function : String) (arguments : List Datum) :
    Eval.Counts n (match Datum.toItems arguments with
      | .error cause => Eval.fail (.notPassable function cause)
      | .ok values => do
        match ← (Talk.ask function values : Talk _) with
        | .ok value => pure (.ofValue value)
        | .error fault => throw (.callback fault) : Eval Datum) := by
  split
  · exact .fail _
  · refine (Eval.Keeps.ask function _ fun reply h => h).bind fun reply _ => ?_
    cases reply with
    | ok v => exact .pure trivial
    | error fault => exact .throw _

/-- A call to another function leaves as many functions running as before. -/
theorem callBack_agree (arguments : List Datum) :
    Agree n (callBack arguments) (callBack arguments) := by
  refine .refl ?_
  unfold callBack
  dsimp only
  split
  · exact Eval.Keeps.bind (P := fun _ => True) (.pure trivial) fun _ _ => passOn_counts _ _
  · exact Eval.Keeps.bind (P := fun _ => True) (.pure trivial) fun _ _ => passOn_counts _ _
  · exact Eval.Keeps.bind (P := fun _ => True) (.fail _) fun _ _ => passOn_counts _ _

end

/-! ### Expressions and statements -/

section

variable {n : Nat} {call other : Caller}

/-- Whether two ways to call values do the same when the given number of functions are running. -/
def Caller.Agree (n : Nat) (call other : Caller) : Prop :=
  ∀ callee arguments, Eval.Agree n (call callee arguments) (other callee arguments)

mutual

/-- Expressions do the same if what they call does. -/
theorem eval_agree (hcall : call.Agree n other) (scope : ScopeId) (e : Expr) :
    Agree n (eval call scope e) (eval other scope e) := by
  cases e with
  | literal l =>
    rw [eval, eval]
    exact .pure _
  | array items =>
    rw [eval, eval]
    exact (evalAll_agree hcall scope items).bind fun vs => .pure _
  | name name =>
    rw [eval, eval]
    refine Agree.get.bind fun s => ?_
    split
    · exact .pure _
    · exact .fail _
  | call callee arguments =>
    rw [eval, eval]
    exact (eval_agree hcall scope callee).bind fun c =>
      (evalAll_agree hcall scope arguments).bind fun vs => hcall c vs
  | index target position =>
    rw [eval, eval]
    exact (eval_agree hcall scope target).bind fun t =>
      (eval_agree hcall scope position).bind fun p => .ofExcept _
  | member target property =>
    rw [eval, eval]
    exact (eval_agree hcall scope target).bind fun t => .ofExcept _
  | unary op operand =>
    cases op with
    | not =>
      rw [eval, eval]
      exact (eval_agree hcall scope operand).bind fun v => .pure _
    | neg =>
      rw [eval, eval]
      exact (eval_agree hcall scope operand).bind fun v => .ofExcept _
  | binary op left right =>
    rw [eval, eval]
    exact (eval_agree hcall scope left).bind fun a =>
      (eval_agree hcall scope right).bind fun b => .ofExcept _
  | logical op left right =>
    rw [eval, eval]
    refine (eval_agree hcall scope left).bind fun v => ?_
    cases op with
    | and =>
      cases v.isTruthy with
      | false => exact .pure v
      | true => exact eval_agree hcall scope right
    | or =>
      cases v.isTruthy with
      | false => exact eval_agree hcall scope right
      | true => exact .pure v
  | conditional condition yes no =>
    rw [eval, eval]
    refine (eval_agree hcall scope condition).bind fun v => ?_
    by_cases hv : v.isTruthy = true
    · rw [if_pos hv, if_pos hv]
      exact eval_agree hcall scope yes
    · rw [if_neg hv, if_neg hv]
      exact eval_agree hcall scope no
  | function f =>
    rw [eval, eval]
    exact .makeClosure scope f

theorem evalAll_agree (hcall : call.Agree n other) (scope : ScopeId) (es : List Expr) :
    Agree n (evalAll call scope es) (evalAll other scope es) := by
  cases es with
  | nil =>
    rw [evalAll, evalAll]
    exact .pure []
  | cons e rest =>
    rw [evalAll, evalAll]
    exact (eval_agree hcall scope e).bind fun v =>
      (evalAll_agree hcall scope rest).bind fun vs => .pure (v :: vs)

end

theorem evalOption_agree (hcall : call.Agree n other) (scope : ScopeId) (e : Option Expr) :
    Agree n (evalOption call scope e) (evalOption other scope e) := by
  cases e with
  | none =>
    rw [evalOption, evalOption]
    exact .pure _
  | some e =>
    rw [evalOption, evalOption]
    exact eval_agree hcall scope e

theorem untilReturn_agree {f g : Datum → Eval Flow} (h : ∀ x, Agree n (f x) (g x))
    (xs : List Datum) : Agree n (untilReturn f xs) (untilReturn g xs) := by
  induction xs with
  | nil => exact .pure _
  | cons x rest ih =>
    refine (h x).bind fun flow => ?_
    cases flow with
    | next => exact ih
    | «return» value => exact .pure _

mutual

/-- Statements do the same if what they call does. -/
theorem exec_agree (hcall : call.Agree n other) (scope : ScopeId) (s : Stmt) :
    Agree n (exec call scope s) (exec other scope s) := by
  cases s with
  | bind name mutable value =>
    rw [exec, exec]
    exact (evalOption_agree hcall scope value).bind fun v =>
      (Agree.define scope name v mutable).bind fun _ => .pure _
  | assign name value =>
    rw [exec, exec]
    exact (eval_agree hcall scope value).bind fun v =>
      (Agree.assign scope name v).bind fun _ => .pure _
  | «return» value =>
    rw [exec, exec]
    exact (evalOption_agree hcall scope value).bind fun v => .pure _
  | branch condition yes no =>
    rw [exec.eq_def, exec.eq_def]
    refine (eval_agree hcall scope condition).bind fun v => ?_
    by_cases hv : v.isTruthy = true
    · rw [if_pos hv, if_pos hv]
      exact (Agree.openScope scope).bind fun inner => execScoped_agree hcall inner yes
    · rw [if_neg hv, if_neg hv]
      cases no with
      | none => exact .pure _
      | some no => exact (Agree.openScope scope).bind fun inner => execScoped_agree hcall inner no
  | each name elements body =>
    rw [exec, exec]
    refine (eval_agree hcall scope elements).bind fun v => (Agree.ofExcept _).bind fun xs => ?_
    exact untilReturn_agree (fun x => (Agree.openScope scope).bind fun inner =>
      (Agree.define inner name x false).bind fun _ => execScoped_agree hcall inner body) xs
  | throw value =>
    rw [exec, exec]
    exact (eval_agree hcall scope value).bind fun v => .throw _
  | function f =>
    rw [exec, exec]
    exact .pure _
  | block statements =>
    rw [exec, exec]
    exact (Agree.openScope scope).bind fun inner => execScoped_agree hcall inner statements
  | expr value =>
    rw [exec, exec]
    exact (eval_agree hcall scope value).bind fun _ => .pure _

theorem execScoped_agree (hcall : call.Agree n other) (scope : ScopeId)
    (statements : List Stmt) :
    Agree n (execScoped call scope statements) (execScoped other scope statements) := by
  rw [execScoped, execScoped]
  exact (hoist_agree scope statements).bind fun _ => execAll_agree hcall scope statements

theorem execAll_agree (hcall : call.Agree n other) (scope : ScopeId) (statements : List Stmt) :
    Agree n (execAll call scope statements) (execAll other scope statements) := by
  cases statements with
  | nil =>
    rw [execAll, execAll]
    exact .pure _
  | cons s rest =>
    rw [execAll, execAll]
    refine (exec_agree hcall scope s).bind fun flow => ?_
    cases flow with
    | next => exact execAll_agree hcall scope rest
    | «return» value => exact .pure _

end

theorem enter_agree (hcall : call.Agree n other) (closure : Closure) (arguments : List Datum) :
    Agree n (enter call closure arguments) (enter other closure arguments) := by
  refine (Agree.openScope closure.scope).bind fun scope => ?_
  refine (bindParameters_agree scope _ arguments).bind fun _ => ?_
  split
  · exact eval_agree hcall scope _
  · refine (execScoped_agree hcall scope _).bind fun flow => ?_
    cases flow with
    | next => exact .pure _
    | «return» value => exact .pure value

end

/-! ### Calls -/

/-- Calls a value.  Whether a function of the script may run is read off the count of those that are
running; the alarm is raised instead if it would run inside as many others as `depth`. -/
def callCounting (alarm : Caller) : (depth : Nat) → Caller
  | _, .builtin .call, arguments => callBack arguments
  | _, .builtin b, arguments => Eval.ofExcept (Datum.apply b arguments)
  | depth, .closure closure, arguments => do
    if maxCalls ≤ (← get).active then Eval.fail (.tooManyCalls maxCalls)
    else Eval.counted <| match depth with
      | 0 => alarm (.closure closure) arguments
      | depth + 1 => enter (callCounting alarm depth) closure arguments
  | _, other, _ => Eval.fail (.notCallable other.kind)

/-- Calling a value leaves as many functions running as before, however many may still run. -/
theorem callWithin_agree_self (spare : Nat) :
    ∀ n, (callWithin spare).Agree n (callWithin spare) := by
  induction spare with
  | zero =>
    intro n callee arguments
    rw [callWithin.eq_def]
    split
    · exact callBack_agree _
    · exact .ofExcept _
    · exact .fail _
    · contradiction
    · exact .fail _
  | succ spare ih =>
    intro n callee arguments
    rw [callWithin.eq_def]
    split
    · exact callBack_agree _
    · exact .ofExcept _
    · contradiction
    · rename_i hspare
      obtain rfl := Nat.succ.inj hspare
      exact .counted (enter_agree (ih (n + 1)) _ _)
    · exact .fail _

/-- What is not a function of the script is called in the same way. -/
theorem callCounting_of_not_closure (alarm : Caller) (depth spare : Nat) {callee : Datum}
    (h : ∀ c, callee ≠ .closure c) (arguments : List Datum) :
    callCounting alarm depth callee arguments = callWithin spare callee arguments := by
  rw [callCounting.eq_def, callWithin.eq_def]
  cases callee with
  | closure c => exact absurd rfl (h c)
  | builtin b => cases b <;> rfl
  | _ => rfl

/-- Whether a function may run depends on how many are running. -/
theorem run_callCounting_closure (alarm : Caller) (depth : Nat) (closure : Closure)
    (arguments : List Datum) (s : Store) :
    ((callCounting alarm depth (.closure closure) arguments).run.run s : Talk _) =
      if maxCalls ≤ s.active then
        ((Eval.fail (.tooManyCalls maxCalls) : Eval Datum).run.run s : Talk _)
      else
        (Eval.counted (match depth with
          | 0 => alarm (.closure closure) arguments
          | depth + 1 => enter (callCounting alarm depth) closure arguments)).run.run s := by
  rw [callCounting.eq_def]
  change (ite (maxCalls ≤ s.active) _ _ : Eval Datum).run.run s = _
  by_cases hs : maxCalls ≤ s.active
  · rw [if_pos hs, if_pos hs]
  · rw [if_neg hs, if_neg hs]

/-- The count of running functions tells how many more may run. -/
theorem callWithin_agree_callCounting (alarm : Caller) (spare : Nat) :
    ∀ depth n, spare ≤ depth → maxCalls - n = spare →
      (callWithin spare).Agree n (callCounting alarm depth) := by
  induction spare with
  | zero =>
    intro depth n _ hn callee arguments
    by_cases hcallee : ∀ c, callee ≠ .closure c
    · rw [callCounting_of_not_closure alarm depth 0 hcallee]
      exact callWithin_agree_self 0 n callee arguments
    · obtain ⟨closure, rfl⟩ : ∃ c, callee = .closure c := by simpa using hcallee
      rw [callWithin]
      refine ⟨.fail _, fun s hs => ?_⟩
      have hfull : maxCalls ≤ s.active := by omega
      rw [run_callCounting_closure, if_pos hfull]
  | succ spare ih =>
    intro depth n hdepth hn callee arguments
    obtain ⟨depth, rfl⟩ : ∃ d, depth = d + 1 := ⟨depth - 1, by omega⟩
    by_cases hcallee : ∀ c, callee ≠ .closure c
    · rw [callCounting_of_not_closure alarm (depth + 1) (spare + 1) hcallee]
      exact callWithin_agree_self (spare + 1) n callee arguments
    · obtain ⟨closure, rfl⟩ : ∃ c, callee = .closure c := by simpa using hcallee
      have hcounted := Agree.counted
        (enter_agree (ih depth (n + 1) (by omega) (by omega)) closure arguments)
      rw [callWithin]
      refine ⟨hcounted.counts, fun s hs => ?_⟩
      have hspare : ¬maxCalls ≤ s.active := by omega
      rw [run_callCounting_closure, if_neg hspare]
      exact hcounted.same s hs

/-! ### Whole runs -/

/-- Runs a script as `runProgram` does, with the given way to call values. -/
def runBy (call : Caller) (program : Program) (name : String) (arguments : List Datum) :
    Eval Datum := do
  for b in Builtin.all do
    Eval.define Store.globals b.name (.builtin b) true
  match ← execScoped call Store.globals program with
  | .return _ => Eval.fail .returnAtTopLevel
  | .next =>
    match (← get).lookup? Store.globals name with
    | some (.closure c) => call (.closure c) arguments
    | some (.builtin b) => call (.builtin b) arguments
    | some other => Eval.fail (.notTheFunction name other.kind)
    | none => Eval.fail (.missingFunction name)

theorem runProgram_eq_runBy : runProgram = runBy (callWithin maxCalls) := rfl

theorem runBy_agree {n : Nat} {call other : Caller} (hcall : call.Agree n other)
    (program : Program) (name : String) (arguments : List Datum) :
    Agree n (runBy call program name arguments) (runBy other program name arguments) := by
  have hbuiltins := Eval.Keeps.forEach Builtin.all fun b =>
    (Agree.define (n := n) Store.globals b.name (.builtin b) true).counts
  refine (Agree.refl hbuiltins).bind fun _ => ?_
  refine (execScoped_agree hcall _ program).bind fun flow => ?_
  cases flow with
  | «return» value => exact .fail _
  | next =>
    refine Agree.get.bind fun s => ?_
    split
    · exact hcall _ _
    · exact hcall _ _
    · exact .fail _
    · exact .fail _

/-- Two parts of a run that agree end in the same way, with as many functions running. -/
theorem Eval.Agree.answeredBy {α σ : Type} {n : Nat} {x y : Eval α} (h : Agree n x y) {store : Store}
    (hn : store.active = n) (answer : String → List Value → σ → Except Fault Value × σ) (s : σ) :
    (y.run.run store : Talk _).answeredBy answer s = (x.run.run store : Talk _).answeredBy answer s ∧
      ((x.run.run store : Talk _).answeredBy answer s).1.2.active = n := by
  refine ⟨by rw [h.same store hn], ?_⟩
  exact ((h.counts store hn).answeredBy (fun _ _ _ => trivial) s).1

/-- Every run ends with a value or a failure, whatever is answered to its calls of other functions:
the same one whatever happens when a function is to run inside `maxCalls` others, and no matter how
many more the recursion would go through.  After the run, and after each call of a function of the
script, failed or not, as many functions are running as before it. -/
theorem runBy_callCounting {σ : Type}
    (answer : String → List Value → σ → Except Fault Value × σ) :
    (∀ (program : Program) (name : String) (arguments : List Datum) (s : σ),
      ∃ (result : Except Failure Datum) (store : Store) (s' : σ), store.active = 0 ∧
        ((runProgram program name arguments).run.run Store.initial : Talk _).answeredBy answer s =
          ((result, store), s') ∧
        ∀ (alarm : Caller) (further : Nat),
          ((runBy (callCounting alarm (maxCalls + further)) program name arguments).run.run
            Store.initial : Talk _).answeredBy answer s = ((result, store), s')) ∧
      ∀ (closure : Closure) (arguments : List Datum) (store : Store) (s : σ),
        ∃ (result : Except Failure Datum) (store' : Store) (s' : σ), store'.active = store.active ∧
          ∀ (alarm : Caller) (further : Nat),
            ((callCounting alarm (maxCalls - store.active + further) (.closure closure)
              arguments).run.run store : Talk _).answeredBy answer s = ((result, store'), s') := by
  refine ⟨fun program name arguments s => ?_, fun closure arguments store s => ?_⟩
  · have hagree : ∀ alarm further, Agree 0 (runProgram program name arguments)
        (runBy (callCounting alarm (maxCalls + further)) program name arguments) := by
      intro alarm further
      rw [runProgram_eq_runBy]
      refine runBy_agree ?_ program name arguments
      exact callWithin_agree_callCounting alarm maxCalls _ 0 (Nat.le_add_right ..) rfl
    have hinitial : Store.initial.active = 0 := rfl
    have hactive := ((hagree (callWithin 0) 0).answeredBy hinitial answer s).2
    refine ⟨_, _, _, hactive, rfl, fun alarm further => ?_⟩
    exact ((hagree alarm further).answeredBy hinitial answer s).1
  · have hagree : ∀ alarm further, Agree store.active
        (callWithin (maxCalls - store.active) (.closure closure) arguments)
        (callCounting alarm (maxCalls - store.active + further) (.closure closure) arguments) :=
      fun alarm further =>
        callWithin_agree_callCounting alarm _ _ _ (Nat.le_add_right ..) rfl _ _
    have hactive := ((hagree (callWithin 0) 0).answeredBy rfl answer s).2
    let ended := ((callWithin (maxCalls - store.active) (.closure closure) arguments).run.run
      store : Talk _).answeredBy answer s
    refine ⟨ended.1.1, ended.1.2, ended.2, hactive, fun alarm further => ?_⟩
    exact ((hagree alarm further).answeredBy rfl answer s).1

end Polyglot.Script
