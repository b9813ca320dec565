import Polyglot.Script.Datum.Native
import Polyglot.Script.Datum.Operators
import Polyglot.Script.Store
import Polyglot.Script.Token.Scan
import Polyglot.Script.Tree.OfTokens
import Polyglot.Talk

/-!
# Running scripts

A run evaluates the statements of a script in the outermost scope, where the functions that every
script has are bound already, and then calls the function of the given name.

Running a statement or an expression recurses on its syntax, and calling a function recurses on the
number of calls that may still be nested, so every run ends if the calls to other functions do.
-/

namespace Polyglot.Script

/-- How many functions of a script may run inside one another. -/
def maxCalls : Nat := 128

/-- A part of a run: it changes the scopes and may fail or call other functions. -/
abbrev Eval (α : Type) := ExceptT Failure (StateT Store Talk) α

namespace Eval

variable {α : Type}

/-- Ends the run with a runtime error. -/
def fail (error : RuntimeError) : Eval α := throw (.runtime error)

/-- The result of an operation that may fail. -/
def ofExcept : Except RuntimeError α → Eval α
  | .ok a => pure a
  | .error e => fail e

/-- Opens a scope inside another. -/
def openScope (scope : ScopeId) : Eval ScopeId := modifyGet (·.openScope scope)

/-- Binds a name in a scope, which must not have it yet. -/
def define (scope : ScopeId) (name : String) (value : Datum) (mutable : Bool) : Eval Unit := do
  match (← get).bindingAt? scope name with
  | some _ => fail (.redeclared name)
  | none => modify (·.bind scope name ⟨value, mutable⟩)

/-- Replaces the value of the closest binding of a name, which must be mutable. -/
def assign (scope : ScopeId) (name : String) (value : Datum) : Eval Unit := do
  match (← get).resolve? scope name with
  | none => fail (.undefined name)
  | some (owner, binding) =>
    if binding.mutable then modify (·.replace owner name value)
    else fail (.constantAssigned name)

/-- Makes a function of a declaration. -/
def makeClosure (scope : ScopeId) (function : Function) : Eval Datum :=
  Datum.closure <$> modifyGet (·.makeClosure scope function)

/-- Changes the number of functions that are running. -/
def countActive (change : Nat → Nat) : Eval Unit :=
  modify fun store => { store with active := change store.active }

/-- Runs a part of a run with one more function counted as running. -/
def counted (part : Eval α) : Eval α := do
  countActive (· + 1)
  let result ← observing part
  countActive (· - 1)
  match result with
  | .ok a => pure a
  | .error failure => throw failure
where
  /-- The result of a part of a run, whether it fails or not. -/
  observing (part : Eval α) : Eval (Except Failure α) := ExceptT.lift (ExceptT.run part)

end Eval

/-- How a statement ends. -/
inductive Flow where
  /-- The next statement follows. -/
  | next
  /-- The function ends with a value. -/
  | return (value : Datum)

/-- Does something for each element until it ends the function. -/
def untilReturn (f : Datum → Eval Flow) : List Datum → Eval Flow
  | [] => pure .next
  | x :: xs => do
    match ← f x with
    | .next => untilReturn f xs
    | .return value => pure (.return value)

/-- The value of a literal. -/
def Literal.datum : Literal → Datum
  | .int n => .int n
  | .text s => .text s
  | .bool b => .bool b
  | .null => .null

/-- Binds the functions that a block declares, which are visible in all of it. -/
def hoist (scope : ScopeId) : List Stmt → Eval Unit
  | [] => pure ()
  | .function f :: rest => do
    Eval.define scope f.name (← Eval.makeClosure scope f) true
    hoist scope rest
  | _ :: rest => hoist scope rest

/-- What calls a value with arguments. -/
abbrev Caller := Datum → List Datum → Eval Datum

mutual

/-- The value of an expression. -/
def eval (call : Caller) (scope : ScopeId) : Expr → Eval Datum
  | .literal l => pure l.datum
  | .array items => do pure (.list (← evalAll call scope items))
  | .name name => do
    match (← get).lookup? scope name with
    | some v => pure v
    | none => Eval.fail (.undefined name)
  | .call callee arguments => do
    let callee ← eval call scope callee
    let arguments ← evalAll call scope arguments
    call callee arguments
  | .index target position => do
    let target ← eval call scope target
    let position ← eval call scope position
    Eval.ofExcept (target.index position)
  | .member target property => do
    let target ← eval call scope target
    Eval.ofExcept (target.member property)
  | .unary .not operand => do
    let v ← eval call scope operand
    pure (.bool !v.isTruthy)
  | .unary .neg operand => do
    let v ← eval call scope operand
    Eval.ofExcept v.negate
  | .binary op left right => do
    let left ← eval call scope left
    let right ← eval call scope right
    Eval.ofExcept (Datum.binary op left right)
  | .logical op left right => do
    let v ← eval call scope left
    match op, v.isTruthy with
    | .and, false => pure v
    | .or, true => pure v
    | _, _ => eval call scope right
  | .conditional condition yes no => do
    if (← eval call scope condition).isTruthy then eval call scope yes else eval call scope no
  | .function f => Eval.makeClosure scope f

/-- The values of expressions, from the left. -/
def evalAll (call : Caller) (scope : ScopeId) : List Expr → Eval (List Datum)
  | [] => pure []
  | e :: es => do
    let v ← eval call scope e
    let vs ← evalAll call scope es
    pure (v :: vs)

/-- The value of an expression, or null without one. -/
def evalOption (call : Caller) (scope : ScopeId) : Option Expr → Eval Datum
  | none => pure .null
  | some e => eval call scope e

end

mutual

/-- Runs a statement. -/
def exec (call : Caller) (scope : ScopeId) : Stmt → Eval Flow
  | .bind name mutable value => do
    Eval.define scope name (← evalOption call scope value) mutable
    pure .next
  | .assign name value => do
    Eval.assign scope name (← eval call scope value)
    pure .next
  | .return value => do pure (.return (← evalOption call scope value))
  | .branch condition yes no => do
    if (← eval call scope condition).isTruthy then
      execScoped call (← Eval.openScope scope) yes
    else
      match no with
      | some no => do execScoped call (← Eval.openScope scope) no
      | none => pure .next
  | .each name elements body => do
    let elements ← Eval.ofExcept (← eval call scope elements).elements
    untilReturn (fun element => do
      let inner ← Eval.openScope scope
      Eval.define inner name element false
      execScoped call inner body) elements
  | .throw value => do throw (.thrown (← eval call scope value).toText)
  | .function _ => pure .next
  | .block statements => do execScoped call (← Eval.openScope scope) statements
  | .expr value => do
    let _ ← eval call scope value
    pure .next

/-- Runs the statements of a block in its scope. -/
def execScoped (call : Caller) (scope : ScopeId) (statements : List Stmt) : Eval Flow := do
  hoist scope statements
  execAll call scope statements

/-- Runs statements until one ends the function. -/
def execAll (call : Caller) (scope : ScopeId) : List Stmt → Eval Flow
  | [] => pure .next
  | s :: rest => do
    match ← exec call scope s with
    | .next => execAll call scope rest
    | .return value => pure (.return value)

end

/-- Asks for the evaluation of another function. -/
def callBack (arguments : List Datum) : Eval Datum := do
  let (function, arguments) ← match arguments with
    | .text id :: rest => pure (id, rest)
    | .reference id :: rest => pure (id, rest)
    | _ => Eval.fail (.badArguments .call "a function id as its first argument")
  match Datum.toItems arguments with
  | .error cause => Eval.fail (.notPassable function cause)
  | .ok values =>
    match ← (Talk.ask function values : Talk _) with
    | .ok value => pure (.ofValue value)
    | .error fault => throw (.callback fault)

/-- Binds parameters to arguments, and to null where there are none. -/
def bindParameters (scope : ScopeId) : List String → List Datum → Eval Unit
  | [], _ => pure ()
  | p :: ps, [] => do
    Eval.define scope p .null true
    bindParameters scope ps []
  | p :: ps, a :: as => do
    Eval.define scope p a true
    bindParameters scope ps as

/-- Runs a function of the script. -/
def enter (call : Caller) (closure : Closure) (arguments : List Datum) : Eval Datum := do
  let scope ← Eval.openScope closure.scope
  bindParameters scope closure.function.parameters arguments
  match closure.function.body with
  | .expr value => eval call scope value
  | .block statements =>
    match ← execScoped call scope statements with
    | .return value => pure value
    | .next => pure .null

/-- Calls a value, when the given number of functions may still run inside one another. -/
def callWithin : (spare : Nat) → Caller
  | _, .builtin .call, arguments => callBack arguments
  | _, .builtin b, arguments => Eval.ofExcept (Datum.apply b arguments)
  | 0, .closure _, _ => Eval.fail (.tooManyCalls maxCalls)
  | spare + 1, .closure closure, arguments =>
    Eval.counted (enter (callWithin spare) closure arguments)
  | _, other, _ => Eval.fail (.notCallable other.kind)

/-- Runs a script, then calls the function of the given name. -/
def runProgram (program : Program) (name : String) (arguments : List Datum) : Eval Datum := do
  for b in Builtin.all do
    Eval.define Store.globals b.name (.builtin b) true
  match ← execScoped (callWithin maxCalls) Store.globals program with
  | .return _ => Eval.fail .returnAtTopLevel
  | .next =>
    match (← get).lookup? Store.globals name with
    | some (.closure c) => callWithin maxCalls (.closure c) arguments
    | some (.builtin b) => callWithin maxCalls (.builtin b) arguments
    | some other => Eval.fail (.notTheFunction name other.kind)
    | none => Eval.fail (.missingFunction name)

/-- The script that a text is. -/
def compile (source : String) : Except Fault Program :=
  match (tokenize source).bind Program.ofTokens with
  | .ok program => .ok program
  | .error m => .error (.execution m.message)

/-- Runs a script with native arguments to a native value. -/
def invoke (program : Program) (name : String) (arguments : List Value) :
    Talk (Except Fault Value) := do
  let (result, _) ← (runProgram program name (Datum.ofItems arguments)).run.run Store.initial
  match result with
  | .error failure => pure (.error failure.toFault)
  | .ok v =>
    match v.toValue with
    | .ok value => pure (.ok value)
    | .error cause => pure (.error (.codec cause))

end Polyglot.Script
