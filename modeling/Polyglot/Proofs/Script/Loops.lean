import Polyglot.Proofs.Script.Bindings
import Polyglot.Proofs.Script.Depth

/-!
# What loops visit

A loop shows what it visits when it puts each value at the end of a list (`collecting`).  `Visits` says
of a value which values such a loop puts there, from whatever store and list it begins; there is one
answer (`Visits.unique`).

One turn of the loop opens a scope, binds the element and replaces the list in its own scope
(`runs_turn`).  By induction over the elements, a loop visits these, each once and in their order
(`visits_of_elements`).
-/

namespace Polyglot.Script

/-! ### Runs without calls -/

namespace Eval

variable {α β : Type}

/-- Whether a part of a run yields a value and leaves a store, and calls nothing outside. -/
def Runs (x : Eval α) (store : Store) (a : α) (later : Store) : Prop :=
  (x.run.run store : Talk (Except Failure α × Store)) = pure (.ok a, later)

namespace Runs

variable {x : Eval α} {f : α → Eval β} {a b : α} {c : β} {store later last : Store}

theorem unique (h : x.Runs store a later) (h' : x.Runs store b last) : a = b ∧ later = last := by
  unfold Runs at h h'
  rw [h] at h'
  injection h' with hboth
  injection hboth with hresult hstore
  injection hresult with hvalue
  exact ⟨hvalue, hstore⟩

protected theorem pure (a : α) (store : Store) : (pure a : Eval α).Runs store a store := rfl

protected theorem bind (hx : x.Runs store a later) (hf : (f a).Runs later c last) :
    (x >>= f).Runs store c last := by
  unfold Runs at hx hf ⊢
  rw [run_bind, hx, pure_bind]
  exact hf

theorem get (store : Store) : (get : Eval Store).Runs store store store := rfl

theorem modify (g : Store → Store) (store : Store) :
    (modify g : Eval PUnit).Runs store ⟨⟩ (g store) := rfl

theorem ofExcept {result : Except RuntimeError α} (h : result = .ok a) (store : Store) :
    (ofExcept result).Runs store a store := by
  subst h
  rfl

theorem openScope (scope : ScopeId) (store : Store) :
    (openScope scope).Runs store (store.openScope scope).1 (store.openScope scope).2 := rfl

theorem define {scope : ScopeId} {name : String} (value : Datum) (mutable : Bool)
    (h : store.bindingAt? scope name = none) :
    (define scope name value mutable).Runs store () (store.bind scope name ⟨value, mutable⟩) := by
  unfold Eval.define
  refine .bind (.get store) ?_
  rw [h]
  exact .modify _ store

theorem assign {scope owner : ScopeId} {name : String} {old : Datum} (value : Datum)
    (h : store.resolve? scope name = some (owner, ⟨old, true⟩)) :
    (assign scope name value).Runs store () (store.replace owner name value) := by
  unfold Eval.assign
  refine .bind (.get store) ?_
  rw [h]
  exact .modify _ store

end Runs

end Eval

/-! ### Scopes inside others -/

namespace Store

variable {store : Store} {scope owner : ScopeId} {name other : String} {binding : Binding}

theorem lookup?_of_resolve? (h : store.resolve? scope name = some (owner, binding)) :
    store.lookup? scope name = some binding.value := by
  rw [lookup?, h]
  rfl

theorem path_eq (store : Store) (scope : ScopeId) :
    store.path scope = match store.outer? scope with
      | some outer => scope :: outer
      | none => [] := by
  rw [path, outer?]
  cases store.scopes[scope]? <;> rfl

theorem path_modify (store : Store) (scope : ScopeId) {f : Scope → Scope}
    (hf : ∀ s, (f s).outer = s.outer) (id : ScopeId) :
    path { store with scopes := store.scopes.modify scope f } id = store.path id := by
  rw [path_eq, path_eq, outer?_modify store scope hf]

theorem path_bind (store : Store) (scope : ScopeId) (name : String) (binding : Binding)
    (id : ScopeId) : (store.bind scope name binding).path id = store.path id := by
  rw [bind, path_modify]
  exact fun _ => rfl

theorem path_replace (store : Store) (scope : ScopeId) (name : String) (value : Datum)
    (id : ScopeId) : (store.replace scope name value).path id = store.path id := by
  rw [replace, path_modify]
  exact fun _ => rfl

/-- A scope that is opened has the one around it on its way out. -/
theorem path_opened (store : Store) (scope : ScopeId) :
    (store.openScope scope).2.path store.scopes.size = store.scopes.size :: store.path scope := by
  rw [path, openScope, Array.getElem?_push_size]

theorem path_openScope (store : Store) {scope id : ScopeId} (h : id < store.scopes.size) :
    (store.openScope scope).2.path id = store.path id := by
  rw [path, openScope, Array.getElem?_push, if_neg (Nat.ne_of_lt h), path]

theorem lt_size_of_resolve? (h : store.resolve? scope name = some (owner, binding)) :
    scope < store.scopes.size := by
  obtain ⟨before, after, hpath, -, -⟩ := (store.resolve?_eq_some_iff).mp h
  by_contra hsize
  rw [path, Array.getElem?_eq_none (Nat.not_lt.mp hsize)] at hpath
  simp at hpath

theorem bindingAt?_size (store : Store) (name : String) :
    store.bindingAt? store.scopes.size name = none := by
  rw [bindingAt?, Array.getElem?_size]
  rfl

/-- A name that is not bound where the way out begins is looked for on the rest of it. -/
theorem resolve?_of_path_cons {later : Store} {id : ScopeId}
    (hpath : later.path id = id :: store.path scope) (hnone : later.bindingAt? id name = none)
    (hbinding : ∀ id, later.bindingAt? id name = store.bindingAt? id name) :
    later.resolve? id name = store.resolve? scope name := by
  rw [resolve?, hpath, List.findSome?_cons, hnone, Option.map_none]
  simp only [hbinding]
  rfl

theorem resolve?_congr {later : Store} (hpath : later.path scope = store.path scope)
    (hbinding : ∀ id, later.bindingAt? id name = store.bindingAt? id name) :
    later.resolve? scope name = store.resolve? scope name := by
  simp only [resolve?, hpath, hbinding]

/-- The closest binding has the value that is put into its place. -/
theorem resolve?_replace (h : store.resolve? scope name = some (owner, binding)) (value : Datum) :
    (store.replace owner name value).resolve? scope name = some (owner, { binding with value }) := by
  rw [resolve?_eq_some_iff] at h ⊢
  obtain ⟨before, after, hpath, hbinding, hbefore⟩ := h
  refine ⟨before, after, ?_, ?_, fun closer hcloser => ?_⟩
  · rw [path_replace, hpath]
  · rw [bindingAt?_replace, if_pos ⟨rfl, rfl⟩, hbinding, Option.map_some]
  · have hnone := hbefore closer hcloser
    rw [bindingAt?_replace, hnone]
    split <;> rfl

/-! ### Scopes of loops -/

/-- A scope inside another in which just one name is bound. -/
def openWith (store : Store) (scope : ScopeId) (name : String) (binding : Binding) : Store :=
  (store.openScope scope).2.bind store.scopes.size name binding

theorem path_openWith (store : Store) (scope : ScopeId) (name : String) (binding : Binding) :
    (store.openWith scope name binding).path store.scopes.size =
      store.scopes.size :: store.path scope := by
  rw [openWith, path_bind, path_opened]

theorem bindingAt?_openWith_of_ne (hne : other ≠ name) (id : ScopeId) :
    (store.openWith scope name binding).bindingAt? id other = store.bindingAt? id other := by
  rw [openWith, bindingAt?_bind, if_neg (fun h => hne h.2), bindingAt?_openScope]

/-- The name that is bound inside is found there. -/
theorem lookup?_openWith (store : Store) (scope : ScopeId) (name : String) (binding : Binding) :
    (store.openWith scope name binding).lookup? store.scopes.size name = some binding.value := by
  have hscope : ((store.openScope scope).2.scopes[store.scopes.size]?) =
      some ⟨store.path scope, []⟩ := Array.getElem?_push_size
  have hbinding : (store.openWith scope name binding).bindingAt? store.scopes.size name =
      some binding := by
    rw [openWith, bindingAt?_bind, if_pos ⟨rfl, rfl⟩, hscope, Option.map_some]
  have hresolve : (store.openWith scope name binding).resolve? store.scopes.size name =
      some (store.scopes.size, binding) := by
    rw [resolve?, path_openWith, List.findSome?_cons, hbinding, Option.map_some]
  exact lookup?_of_resolve? hresolve

/-- Any other name is what it is around the scope. -/
theorem resolve?_openWith_of_ne (hne : other ≠ name) :
    (store.openWith scope name binding).resolve? store.scopes.size other =
      store.resolve? scope other := by
  refine resolve?_of_path_cons (path_openWith store scope name binding) ?_ fun id =>
    bindingAt?_openWith_of_ne hne id
  rw [bindingAt?_openWith_of_ne hne, bindingAt?_size]

theorem resolve?_openWith_outside (hne : other ≠ name) (hscope : scope < store.scopes.size) :
    (store.openWith scope name binding).resolve? scope other = store.resolve? scope other := by
  refine resolve?_congr ?_ fun id => bindingAt?_openWith_of_ne hne id
  rw [openWith, path_bind, path_openScope store hscope]

end Store

/-! ### Loops -/

open Eval

variable {call : Caller} {scope owner : ScopeId} {store : Store} {out name : String}
  {acc : List Datum}

theorem runs_name {v : Datum} (h : store.lookup? scope name = some v) :
    (eval call scope (.name name)).Runs store v store := by
  rw [eval]
  refine .bind (.get store) ?_
  rw [h]
  exact .pure v store

/-- The list with a value at its end. -/
def extended (out name : String) : Expr := .binary .add (.name out) (.array [.name name])

theorem runs_extended {x : Datum} (hout : store.lookup? scope out = some (.list acc))
    (hname : store.lookup? scope name = some x) :
    (eval call scope (extended out name)).Runs store (.list (acc ++ [x])) store := by
  have hitems : (evalAll call scope [.name name]).Runs store [x] store := by
    rw [evalAll, evalAll]
    exact .bind (runs_name hname) (.bind (.pure [] store) (.pure [x] store))
  have hright : (eval call scope (.array [.name name])).Runs store (.list [x]) store := by
    rw [eval]
    exact .bind hitems (.pure _ store)
  have hsum : Datum.binary .add (.list acc) (.list [x]) = .ok (.list (acc ++ [x])) := rfl
  rw [extended, eval]
  exact .bind (runs_name hout) (.bind hright (.ofExcept hsum store))

/-- A block that is one assignment. -/
theorem runs_execScoped_assign {e : Expr} {old value : Datum}
    (he : (eval call scope e).Runs store value store)
    (hname : store.resolve? scope name = some (owner, ⟨old, true⟩)) :
    (execScoped call scope [.assign name e]).Runs store .next (store.replace owner name value) := by
  have hassign : (exec call scope (.assign name e)).Runs store .next
      (store.replace owner name value) := by
    rw [exec]
    exact .bind he (.bind (.assign value hname) (.pure Flow.next _))
  -- The block declares no function.
  have hhoist : hoist scope [.assign name e] = pure () := rfl
  rw [execScoped, hhoist]
  refine .bind (.pure () store) ?_
  rw [execAll]
  refine .bind hassign ?_
  rw [execAll]
  exact .pure Flow.next _

/-- What one turn of a loop does that puts each value at the end of a list. -/
def collect (call : Caller) (scope : ScopeId) (out name : String) (element : Datum) : Eval Flow := do
  let inner ← openScope scope
  define inner name element false
  execScoped call inner [.assign out (extended out name)]

/-- One turn puts its element at the end of the list. -/
theorem runs_collect (call : Caller) (hne : out ≠ name)
    (hout : store.resolve? scope out = some (owner, ⟨.list acc, true⟩)) (element : Datum) :
    ∃ later, (collect call scope out name element).Runs store .next later ∧
      later.resolve? scope out = some (owner, ⟨.list (acc ++ [element]), true⟩) := by
  have hfree : (store.openScope scope).2.bindingAt? store.scopes.size name = none := by
    rw [Store.bindingAt?_openScope, Store.bindingAt?_size]
  set entered := store.openWith scope name ⟨element, false⟩ with hentered
  have hinside : entered.resolve? store.scopes.size out = some (owner, ⟨.list acc, true⟩) := by
    rw [hentered, Store.resolve?_openWith_of_ne hne, hout]
  have houtside : entered.resolve? scope out = some (owner, ⟨.list acc, true⟩) := by
    rw [hentered, Store.resolve?_openWith_outside hne (Store.lt_size_of_resolve? hout), hout]
  have hvalue : (eval call store.scopes.size (extended out name)).Runs entered
      (.list (acc ++ [element])) entered :=
    runs_extended (Store.lookup?_of_resolve? hinside) (Store.lookup?_openWith store scope name _)
  refine ⟨entered.replace owner out (.list (acc ++ [element])), ?_,
    Store.resolve?_replace houtside _⟩
  unfold collect
  exact .bind (.openScope scope store)
    (.bind (.define element false hfree) (runs_execScoped_assign hvalue hinside))

/-- A loop that puts each value it visits at the end of a list. -/
def collecting (out name : String) (target : Expr) : Stmt :=
  .each name target [.assign out (extended out name)]

/-- The turns for some elements put these at the end of the list. -/
theorem runs_untilReturn_collect (call : Caller) (hne : out ≠ name) (elements : List Datum)
    (hout : store.resolve? scope out = some (owner, ⟨.list acc, true⟩)) :
    ∃ later, (untilReturn (collect call scope out name) elements).Runs store .next later ∧
      later.resolve? scope out = some (owner, ⟨.list (acc ++ elements), true⟩) := by
  induction elements generalizing store acc with
  | nil =>
    rw [List.append_nil]
    exact ⟨store, .pure Flow.next store, hout⟩
  | cons element elements ih =>
    obtain ⟨between, hturn, hbetween⟩ := runs_collect call hne hout element
    obtain ⟨later, hturns, hlater⟩ := ih hbetween
    rw [List.append_assoc] at hlater
    exact ⟨later, .bind hturn hturns, hlater⟩

/-- Whether a loop over a value visits the given values: a loop that puts each value it visits at the
end of a list puts just these there, in their order. -/
def Visits (target : Datum) (values : List Datum) : Prop :=
  ∀ (call : Caller) (scope owner : ScopeId) (store between : Store) (out name : String) (e : Expr)
    (acc : List Datum), out ≠ name →
    (eval call scope e).Runs store target between →
    between.resolve? scope out = some (owner, ⟨.list acc, true⟩) →
    ∃ later, (exec call scope (collecting out name e)).Runs store .next later ∧
      later.lookup? scope out = some (.list (acc ++ values))

/-- A loop visits the elements of a value. -/
theorem visits_of_elements {target : Datum} {values : List Datum}
    (h : target.elements = .ok values) : Visits target values := by
  intro call scope owner store between out name e acc hne htarget hout
  obtain ⟨later, hturns, hlater⟩ := runs_untilReturn_collect call hne values hout
  refine ⟨later, ?_, Store.lookup?_of_resolve? hlater⟩
  rw [collecting, exec]
  exact .bind htarget (.bind (.ofExcept h between) hturns)

/-- There is one answer to what a loop visits. -/
theorem Visits.unique {target : Datum} {values others : List Datum} (h : Visits target values)
    (h' : Visits target others) : values = others := by
  let store : Store :=
    ⟨#[⟨[], [("target", ⟨target, false⟩), ("out", ⟨.list [], true⟩)]⟩], 0, 0⟩
  have htarget : (eval (fun _ _ => fail .overflow) 0 (.name "target")).Runs store target store :=
    runs_name rfl
  have hout : store.resolve? 0 "out" = some (0, ⟨.list [], true⟩) := rfl
  obtain ⟨later, hruns, hvalues⟩ := h _ 0 0 store store "out" "x" _ [] (by decide) htarget hout
  obtain ⟨last, hruns', hothers⟩ := h' _ 0 0 store store "out" "x" _ [] (by decide) htarget hout
  rw [← (hruns.unique hruns').2, hvalues] at hothers
  cases hothers
  rfl

/-- A loop visits the elements of a value and nothing else. -/
theorem visits_iff {target : Datum} {values : List Datum} (h : target.elements = .ok values)
    (others : List Datum) : Visits target others ↔ others = values := by
  constructor
  · intro hothers
    exact hothers.unique (visits_of_elements h)
  · rintro rfl
    exact visits_of_elements h

end Polyglot.Script
