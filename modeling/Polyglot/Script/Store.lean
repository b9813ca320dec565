import Polyglot.Script.Failure

/-!
# Scopes

The scopes of a run. Each has the bindings made in it and the scopes around it, which it keeps. A
binding is never removed; only one that is mutable changes, by an assignment to its name from a scope
in which no closer one has that name.
-/

namespace Polyglot.Script

/-- What a name is bound to. -/
structure Binding where
  /-- The value. -/
  value : Datum
  /-- Whether the value may be replaced. -/
  mutable : Bool

/-- A scope. -/
structure Scope where
  /-- The scopes around it, the closest first. -/
  outer : List ScopeId
  /-- The names bound in it. -/
  bindings : List (String × Binding)

namespace Scope

/-- The binding of a name in one scope. -/
def find? (scope : Scope) (name : String) : Option Binding := scope.bindings.lookup name

/-- Replaces the value of a binding. -/
def replace (scope : Scope) (name : String) (value : Datum) : Scope :=
  { scope with
    bindings := scope.bindings.map fun (n, b) =>
      if n = name then (n, { b with value }) else (n, b) }

end Scope

/-- All scopes of a run, with the counters of functions made and of functions running. -/
structure Store where
  /-- The scopes, by their numbers. -/
  scopes : Array Scope
  /-- How many functions have been made. -/
  closures : Nat
  /-- How many functions of the script are running. -/
  active : Nat

namespace Store

/-- The store of one scope without anything around it. -/
def initial : Store := ⟨#[⟨[], []⟩], 0, 0⟩

/-- The number of the outermost scope. -/
def globals : ScopeId := 0

/-- The scopes in which a name is looked for from a scope, the closest first. -/
def path (store : Store) (scope : ScopeId) : List ScopeId :=
  match store.scopes[scope]? with
  | some s => scope :: s.outer
  | none => []

/-- The binding of a name in one of the scopes. -/
def bindingAt? (store : Store) (scope : ScopeId) (name : String) : Option Binding :=
  (store.scopes[scope]?).bind (·.find? name)

/-- The closest binding of a name, and the scope it is in. -/
def resolve? (store : Store) (scope : ScopeId) (name : String) : Option (ScopeId × Binding) :=
  (store.path scope).findSome? fun s => (store.bindingAt? s name).map (s, ·)

/-- The value that a name is bound to. -/
def lookup? (store : Store) (scope : ScopeId) (name : String) : Option Datum :=
  (store.resolve? scope name).map (·.2.value)

/-- Opens a scope inside another. -/
def openScope (store : Store) (scope : ScopeId) : ScopeId × Store :=
  (store.scopes.size, { store with scopes := store.scopes.push ⟨store.path scope, []⟩ })

/-- Adds a binding to a scope. -/
def bind (store : Store) (scope : ScopeId) (name : String) (binding : Binding) : Store :=
  { store with
    scopes := store.scopes.modify scope fun s =>
      { s with bindings := (name, binding) :: s.bindings } }

/-- Replaces the value of a binding in a scope. -/
def replace (store : Store) (scope : ScopeId) (name : String) (value : Datum) : Store :=
  { store with scopes := store.scopes.modify scope (·.replace name value) }

/-- Makes a function of a declaration. -/
def makeClosure (store : Store) (scope : ScopeId) (function : Function) : Closure × Store :=
  (⟨store.closures, function, scope⟩, { store with closures := store.closures + 1 })

end Store

end Polyglot.Script
