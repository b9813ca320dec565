import Polyglot.Proofs.Script.Traced

/-!
# Bindings are stable

Once a scope has a binding, it keeps it to the end of the run (`bindings_stable`).  What an act does to
the bindings is one lemma (`Act.change_of_perform`), from the effect of each operation of the store on
what names are bound to (`Store.bindingAt?_bind`, `Store.bindingAt?_replace`).  So each act lets a store
grow (`Act.grows_of_perform`) and binds no name twice (`Act.bindsOnce_of_perform`), and along a course
every store grows from all before it (`Course.pairwise_grows_stores`).

The course is that of the run (`Course.shows_runProgram`), in which each statement does its acts in the
scope that it runs in.
-/

namespace Polyglot.Script

/-! ### What operations on the store do to bindings -/

namespace Scope

theorem find?_replace (scope : Scope) (name : String) (value : Datum) (n : String) :
    (scope.replace name value).find? n =
      if n = name then (scope.find? n).map ({ · with value }) else scope.find? n := by
  obtain ⟨outer, bindings⟩ := scope
  simp only [replace, find?]
  induction bindings with
  | nil => split_ifs <;> rfl
  | cons e rest ih =>
    obtain ⟨m, b⟩ := e
    rw [List.map_cons]
    by_cases hn : n = m
    · by_cases hm : m = name <;> simp [hn, hm]
    · have hskip : ∀ (c : Binding) (others : List (String × Binding)),
          List.lookup n ((m, c) :: others) = List.lookup n others := fun c others => by
        rw [List.lookup_cons, beq_eq_false_iff_ne.mpr hn]
      -- The name is not that of the first binding, whether or not this is replaced.
      by_cases hm : m = name
      · rw [if_pos hm, ← hm, hskip, hskip, hm, ih]
      · rw [if_neg hm, hskip, hskip, ih]

end Scope

namespace Store

variable (store : Store)

theorem bindingAt?_openScope (scope id : ScopeId) (name : String) :
    (store.openScope scope).2.bindingAt? id name = store.bindingAt? id name := by
  rw [bindingAt?, openScope, Array.getElem?_push]
  split_ifs with h
  · rw [bindingAt?, h, Array.getElem?_size]
    rfl
  · rfl

theorem bindingAt?_modify (scope : ScopeId) (f : Scope → Scope) (id : ScopeId) (name : String) :
    bindingAt? { store with scopes := store.scopes.modify scope f } id name =
      if scope = id then (store.scopes[id]?).bind fun s => (f s).find? name
      else store.bindingAt? id name := by
  rw [bindingAt?, Array.getElem?_modify]
  split_ifs
  · rw [Option.bind_map]
    rfl
  · rfl

theorem bindingAt?_bind (scope : ScopeId) (name : String) (binding : Binding) (id : ScopeId)
    (n : String) : (store.bind scope name binding).bindingAt? id n =
      if id = scope ∧ n = name then (store.scopes[id]?).map fun _ => binding
      else store.bindingAt? id n := by
  rw [bind, bindingAt?_modify]
  by_cases hid : id = scope
  · subst hid
    rw [if_pos rfl]
    by_cases hn : n = name
    · rw [if_pos ⟨rfl, hn⟩, Option.map_eq_bind]
      refine congrArg (store.scopes[id]?).bind (funext fun s => ?_)
      show List.lookup n ((name, binding) :: s.bindings) = some binding
      rw [hn, List.lookup_cons_self]
    · have hbeq : (n == name) = false := by simpa using hn
      simp [hn, bindingAt?, Scope.find?, List.lookup_cons, hbeq]
  · simp [hid, Ne.symm hid]

theorem bindingAt?_replace (owner : ScopeId) (name : String) (value : Datum) (id : ScopeId)
    (n : String) : (store.replace owner name value).bindingAt? id n =
      if id = owner ∧ n = name then (store.bindingAt? id n).map ({ · with value })
      else store.bindingAt? id n := by
  rw [replace, bindingAt?_modify]
  by_cases hid : id = owner
  · subst hid
    rw [if_pos rfl]
    simp only [Scope.find?_replace, true_and]
    split_ifs
    · rw [bindingAt?, Option.map_bind]
      rfl
    · rfl
  · simp [hid, Ne.symm hid]

/-- The closest binding of a name is the first one on the way out of a scope. -/
theorem resolve?_eq_some_iff {scope id : ScopeId} {name : String} {b : Binding} :
    store.resolve? scope name = some (id, b) ↔ ∃ inner outer,
      store.path scope = inner ++ id :: outer ∧ store.bindingAt? id name = some b ∧
        ∀ closer ∈ inner, store.bindingAt? closer name = none := by
  rw [resolve?, List.findSome?_eq_some_iff]
  simp only [Option.map_eq_some_iff, Option.map_eq_none_iff, Prod.mk.injEq]
  constructor
  · rintro ⟨inner, id, outer, hpath, ⟨b, hb, rfl, rfl⟩, hinner⟩
    exact ⟨inner, outer, hpath, hb, hinner⟩
  · rintro ⟨inner, outer, hpath, hb, hinner⟩
    exact ⟨inner, id, outer, hpath, ⟨b, hb, rfl, rfl⟩, hinner⟩

end Store

/-! ### What acts do to bindings -/

/-- An act opens a scope, binds a name that its scope does not have, replaces the value of a closest
binding that is mutable, or leaves the scopes as they are. -/
theorem Act.cases_of_perform {act : Act} {earlier later : Store}
    (h : act.perform earlier = .ok later) :
    (∃ scope, later = (earlier.openScope scope).2) ∨
    (∃ declaration scope name value, act = .define declaration scope name value ∧
      earlier.bindingAt? scope name = none ∧
      later = earlier.bind scope name ⟨value, declaration.mutable⟩) ∨
    (∃ scope name value owner old, act = .assign scope name value ∧
      earlier.resolve? scope name = some (owner, ⟨old, true⟩) ∧
      later = earlier.replace owner name value) ∨
    later.scopes = earlier.scopes := by
  cases act with
  | openScope scope => exact .inl ⟨scope, (Except.ok.inj h).symm⟩
  | define declaration scope name value =>
    rw [perform] at h
    split at h
    · cases h
    · rename_i hnone
      exact .inr (.inl ⟨declaration, scope, name, value, rfl, hnone, (Except.ok.inj h).symm⟩)
  | assign scope name value =>
    rw [perform] at h
    split at h
    · cases h
    · rename_i owner b hresolve
      split at h
      · rename_i hmutable
        obtain ⟨old, mutable⟩ := b
        obtain rfl : mutable = true := hmutable
        exact .inr (.inr (.inl
          ⟨scope, name, value, owner, old, rfl, hresolve, (Except.ok.inj h).symm⟩))
      · cases h
  | makeClosure scope function => exact .inr (.inr (.inr (Except.ok.inj h ▸ rfl)))
  | countActive change => exact .inr (.inr (.inr (Except.ok.inj h ▸ rfl)))

/-- What becomes of the binding of a name in a scope by an act. -/
inductive Act.Change (act : Act) (earlier later : Store) (id : ScopeId) (name : String) : Prop
  /-- It stays as it is. -/
  | none (h : later.bindingAt? id name = earlier.bindingAt? id name)
  /-- It is made where there was none, by a declaration that says whether it may be replaced. -/
  | define (declaration : Declaration) (value : Datum)
    (hact : act = .define declaration id name value)
    (hearlier : earlier.bindingAt? id name = .none)
    (hlater : later.bindingAt? id name = some ⟨value, declaration.mutable⟩)
  /-- It is mutable and gets another value, by an assignment to its name from a scope between which and
  its own no closer scope has that name. -/
  | assign (scope : ScopeId) (old value : Datum) (inner outer : List ScopeId)
    (hact : act = .assign scope name value) (hpath : earlier.path scope = inner ++ id :: outer)
    (hinner : ∀ closer ∈ inner, earlier.bindingAt? closer name = .none)
    (hearlier : earlier.bindingAt? id name = some ⟨old, true⟩)
    (hlater : later.bindingAt? id name = some ⟨value, true⟩)

theorem Act.change_of_perform {act : Act} {earlier later : Store}
    (h : act.perform earlier = .ok later) (id : ScopeId) (name : String) :
    act.Change earlier later id name := by
  rcases cases_of_perform h with ⟨scope, rfl⟩ | ⟨declaration, scope, n, value, rfl, hnone, rfl⟩ |
    ⟨scope, n, value, owner, old, rfl, hresolve, rfl⟩ | hscopes
  · exact .none (earlier.bindingAt?_openScope scope id name)
  · have hlater := earlier.bindingAt?_bind scope n ⟨value, declaration.mutable⟩ id name
    by_cases hplace : id = scope ∧ name = n
    · obtain ⟨rfl, rfl⟩ := hplace
      rw [if_pos ⟨rfl, rfl⟩] at hlater
      cases hscope : earlier.scopes[id]? with
      | none => exact .none (by rw [hlater, hscope, hnone]; rfl)
      | some s => exact .define declaration value rfl hnone (by rw [hlater, hscope]; rfl)
    · exact .none (by rw [hlater, if_neg hplace])
  · obtain ⟨inner, outer, hpath, hb, hinner⟩ := earlier.resolve?_eq_some_iff.mp hresolve
    have hlater := earlier.bindingAt?_replace owner n value id name
    by_cases hplace : id = owner ∧ name = n
    · obtain ⟨rfl, rfl⟩ := hplace
      rw [if_pos ⟨rfl, rfl⟩, hb] at hlater
      exact .assign scope old value inner outer rfl hpath hinner hb hlater
    · exact .none (by rw [hlater, if_neg hplace])
  · exact .none (by rw [Store.bindingAt?, Store.bindingAt?, hscopes])

/-! ### What runs keep of their scopes -/

/-- The scopes around a scope, if there is one of the number. -/
def Store.outer? (store : Store) (id : ScopeId) : Option (List ScopeId) :=
  (store.scopes[id]?).map (·.outer)

/-- Whether a later store has all scopes of an earlier one, within the same scopes, and all bindings,
with the same values where these may not be replaced. -/
structure Store.Grows (earlier later : Store) : Prop where
  /-- The scopes around a scope stay the same. -/
  outer (id : ScopeId) (outer : List ScopeId) (h : earlier.outer? id = some outer) :
    later.outer? id = some outer
  /-- A binding that may be replaced stays one. -/
  mutable (id : ScopeId) (name : String) (value : Datum)
    (h : earlier.bindingAt? id name = some ⟨value, true⟩) :
    ∃ value', later.bindingAt? id name = some ⟨value', true⟩
  /-- A binding that may not be replaced stays as it is. -/
  constant (id : ScopeId) (name : String) (value : Datum)
    (h : earlier.bindingAt? id name = some ⟨value, false⟩) :
    later.bindingAt? id name = some ⟨value, false⟩

theorem Store.Grows.refl (store : Store) : store.Grows store where
  outer _ _ h := h
  mutable _ _ value h := ⟨value, h⟩
  constant _ _ _ h := h

theorem Store.Grows.trans {a b c : Store} (hab : a.Grows b) (hbc : b.Grows c) : a.Grows c where
  outer id outer h := hbc.outer id outer (hab.outer id outer h)
  mutable id name value h := by
    obtain ⟨value', h'⟩ := hab.mutable id name value h
    exact hbc.mutable id name value' h'
  constant id name value h := hbc.constant id name value (hab.constant id name value h)

theorem Store.outer?_modify (store : Store) (scope : ScopeId) {f : Scope → Scope}
    (hf : ∀ s, (f s).outer = s.outer) (id : ScopeId) :
    outer? { store with scopes := store.scopes.modify scope f } id = store.outer? id := by
  rw [outer?, Array.getElem?_modify]
  split_ifs
  · rw [Option.map_map, outer?]
    exact congrArg (Option.map · _) (funext hf)
  · rfl

theorem Act.grows_of_perform {act : Act} {earlier later : Store}
    (h : act.perform earlier = .ok later) : earlier.Grows later where
  outer id outer hid := by
    rcases cases_of_perform h with ⟨scope, rfl⟩ | ⟨declaration, scope, n, value, -, -, rfl⟩ |
      ⟨_, n, value, owner, _, -, -, rfl⟩ | hscopes
    · obtain ⟨s, hs, -⟩ := Option.map_eq_some_iff.mp hid
      obtain ⟨hlt, -⟩ := Array.getElem?_eq_some_iff.mp hs
      -- The scope that is opened gets a number that none has yet.
      rw [Store.outer?, Store.openScope, Array.getElem?_push, if_neg (Nat.ne_of_lt hlt)]
      exact hid
    · rw [Store.bind, Store.outer?_modify]
      · exact hid
      · exact fun _ => rfl
    · rw [Store.replace, Store.outer?_modify]
      · exact hid
      · exact fun _ => rfl
    · rw [Store.outer?, hscopes]
      exact hid
  mutable id name value hb := by
    cases act.change_of_perform h id name with
    | none hsame => exact ⟨value, hsame.trans hb⟩
    | define _ _ _ hnone _ => cases hb.symm.trans hnone
    | assign _ _ value' _ _ _ _ _ _ hlater => exact ⟨value', hlater⟩
  constant id name value hb := by
    cases act.change_of_perform h id name with
    | none hsame => exact hsame.trans hb
    | define _ _ _ hnone _ => cases hb.symm.trans hnone
    | assign _ _ _ _ _ _ _ _ hearlier _ => cases hb.symm.trans hearlier

/-- Whether each scope binds each name at most once. -/
def Store.BindsOnce (store : Store) : Prop :=
  ∀ (id : ScopeId) (scope : Scope), store.scopes[id]? = some scope →
    (scope.bindings.map (·.1)).Nodup

theorem Store.bindsOnce_initial : initial.BindsOnce := by
  intro id scope h
  cases id with
  | zero =>
    obtain rfl := Option.some.inj h
    exact List.nodup_nil
  | succ id => cases h

theorem Store.BindsOnce.modify {store : Store} (h : store.BindsOnce) (scope : ScopeId)
    {f : Scope → Scope} (hf : ∀ s, store.scopes[scope]? = some s → (s.bindings.map (·.1)).Nodup →
      ((f s).bindings.map (·.1)).Nodup) :
    BindsOnce { store with scopes := store.scopes.modify scope f } := by
  intro id s hs
  rw [Array.getElem?_modify] at hs
  split at hs
  · rename_i heq
    obtain ⟨s', hs', rfl⟩ := Option.map_eq_some_iff.mp hs
    exact hf s' (heq ▸ hs') (h id s' hs')
  · exact h id s hs

theorem Act.bindsOnce_of_perform {act : Act} {earlier later : Store}
    (h : act.perform earlier = .ok later) (hearlier : earlier.BindsOnce) : later.BindsOnce := by
  rcases cases_of_perform h with ⟨scope, rfl⟩ | ⟨declaration, scope, n, value, -, hnone, rfl⟩ |
    ⟨_, n, value, owner, _, -, -, rfl⟩ | hscopes
  · intro id s hs
    rw [Store.openScope, Array.getElem?_push] at hs
    split at hs
    · obtain rfl := Option.some.inj hs
      exact List.nodup_nil
    · exact hearlier id s hs
  · refine hearlier.modify scope fun s hs hnodup => List.nodup_cons.mpr ⟨fun hmem => ?_, hnodup⟩
    -- The name would be found in the scope, which has been ruled out.
    rw [Store.bindingAt?, hs] at hnone
    obtain ⟨e, he, rfl⟩ := List.mem_map.mp hmem
    simpa using List.lookup_eq_none_iff.mp hnone e he
  · refine hearlier.modify owner fun s _ hnodup => ?_
    have hnames : (s.replace n value).bindings.map (·.1) = s.bindings.map (·.1) := by
      rw [Scope.replace, List.map_map]
      refine List.map_congr_left fun e _ => ?_
      simp only [Function.comp_apply]
      split_ifs <;> rfl
    rwa [hnames]
  · rw [Store.BindsOnce, hscopes]
    exact hearlier

/-! ### Whole runs -/

instance : Trans Store.Grows Store.Grows Store.Grows := ⟨Store.Grows.trans⟩

namespace Course

variable {α σ : Type} (answer : String → List Value → σ → Except Fault Value × σ)
  (course : Course α) (s : σ) (store : Store)

theorem pairwise_grows_stores : (course.stores answer s store).Pairwise Store.Grows :=
  ((course.isChain_stores answer s store).imp fun _ _ ⟨_, h⟩ => Act.grows_of_perform h).pairwise

theorem bindsOnce_stores (h : store.BindsOnce) :
    ∀ later ∈ course.stores answer s store, later.BindsOnce :=
  (course.isChain_stores answer s store).induction Store.BindsOnce _
    (fun _ _ ⟨_, hperform⟩ hearlier => Act.bindsOnce_of_perform hperform hearlier) fun _ => h

end Course

/-- Bindings are stable: the course of a run shows the store at each moment up to the end, and doing what
it says is the run.  From any moment to any later one, each scope stays within the same scopes, and each
binding stays, with its value if it may not be replaced; no scope has two bindings of one name.  From one
moment to the next, one act is done, and each binding stays as it is, is made where there was none, or is
replaced, if it may be, by an assignment from a scope in which no closer binding has that name.

The scope of an act is the one that its statement runs in: that of the block for a `let`, a `const`, a
function and an assignment, a scope of each round for the name of a loop, and that of the call for
parameters.  What a `const` and a loop bind may not be replaced. -/
theorem bindings_stable :
    (∀ (program : Program) (name : String) (arguments : List Datum),
      let course := Course.runProgram program name arguments
      (∀ store, ((runProgram program name arguments).run.run store :
        Talk (Except Failure Datum × Store)) = course.run store) ∧
      ∀ (σ : Type) (answer : String → List Value → σ → Except Fault Value × σ) (s : σ),
        let stores := course.stores answer s Store.initial
        let moments := course.moments answer s Store.initial
        stores.head? = some Store.initial ∧
        stores.getLast? = some (((runProgram program name arguments).run.run Store.initial :
          Talk (Except Failure Datum × Store)).answeredBy answer s).1.2 ∧
        stores.Pairwise Store.Grows ∧ (∀ store ∈ stores, store.BindsOnce) ∧
        ∀ i act later, moments[i]? = some (act, later) → ∃ earlier,
          stores[i]? = some earlier ∧ stores[i + 1]? = some later ∧
          act.perform earlier = .ok later ∧ ∀ id n, act.Change earlier later id n) ∧
    (∀ (call : Caller) (scope : ScopeId) (n : String) (mutable : Bool) (value : Option Expr),
      exec call scope (.bind n mutable value) = do
        let v ← evalOption call scope value
        Eval.act (.define (.ofMutable mutable) scope n v)
        pure .next) ∧
    (∀ (call : Caller) (scope : ScopeId) (n : String) (value : Expr),
      exec call scope (.assign n value) = do
        let v ← eval call scope value
        Eval.act (.assign scope n v)
        pure .next) ∧
    (∀ (call : Caller) (scope : ScopeId) (n : String) (elements : Expr) (body : List Stmt),
      exec call scope (.each n elements body) = do
        let elements ← Eval.ofExcept (← eval call scope elements).elements
        untilReturn (fun element => do
          let inner ← Eval.openScope scope
          Eval.act (.define .loop inner n element)
          execScoped call inner body) elements) ∧
    (∀ (scope : ScopeId) (f : Function) (rest : List Stmt),
      hoist scope (.function f :: rest) = do
        let closure ← Eval.makeClosure scope f
        Eval.act (.define .function scope f.name closure)
        hoist scope rest) ∧
    (∀ (scope : ScopeId) (p : String) (ps : List String) (arguments : List Datum),
      bindParameters scope (p :: ps) arguments = do
        Eval.act (.define .parameter scope p (arguments.headD .null))
        bindParameters scope ps arguments.tail) := by
  refine ⟨fun program name arguments => ?_, fun call scope n mutable value => ?_,
    fun call scope n value => ?_, fun call scope n elements body => ?_, fun scope f rest => ?_,
    fun scope p ps arguments => ?_⟩
  · intro course
    have hcourse := Course.shows_runProgram program name arguments
    refine ⟨hcourse, fun σ answer s => ⟨rfl, ?_, ?_, ?_, fun i act later h => ?_⟩⟩
    · rw [hcourse, course.getLast?_stores]
    · exact course.pairwise_grows_stores answer s Store.initial
    · exact course.bindsOnce_stores answer s Store.initial Store.bindsOnce_initial
    · obtain ⟨earlier, hearlier, hlater, hperform⟩ := course.perform_of_moments answer s _ h
      exact ⟨earlier, hearlier, hlater, hperform, act.change_of_perform hperform⟩
  · simp only [exec, ← Eval.define_eq_act, Declaration.mutable_ofMutable]
  · simp only [exec, Eval.assign_eq_act]
  · simp only [exec, ← Eval.define_eq_act, Declaration.mutable]
  · simp only [hoist, ← Eval.define_eq_act, Declaration.mutable]
  · cases arguments <;> simp only [bindParameters, ← Eval.define_eq_act, Declaration.mutable] <;> rfl

/-- A script with a variable of the same name inside and outside of a function, which assigns to it from a
block of its own. -/
def shadowing : Program :=
  [.bind "c" false (some (.literal (.int 2))), .bind "x" true (some (.literal (.int 1))),
    .function (.mk "f" ["v"] (.block [.bind "x" true (some (.name "c")),
      .block [.assign "x" (.name "v")], .return (some (.name "x"))]))]

theorem bindings_stable_shadowing :
    let stores := (Course.runProgram shadowing "f" [.int 3]).stores
      (fun _ _ s => (.ok .unit, s)) () Store.initial
    ∃ earlier later last : Store, stores[21]? = some earlier ∧ stores[22]? = some later ∧
      (Act.assign 2 "x" (.int 3)).Change earlier later 1 "x" ∧ earlier.path 2 = [2, 1, 0] ∧
      earlier.bindingAt? 1 "x" = some ⟨.int 2, true⟩ ∧ later.bindingAt? 1 "x" = some ⟨.int 3, true⟩ ∧
      stores.getLast? = some last ∧ Store.initial.Grows last ∧
      last.bindingAt? 0 "x" = some ⟨.int 1, true⟩ ∧ last.bindingAt? 0 "c" = some ⟨.int 2, false⟩ := by
  intro stores
  obtain ⟨-, h⟩ := bindings_stable.1 shadowing "f" [.int 3]
  obtain ⟨hhead, hlast, hpairwise, -, hmoments⟩ := h Unit (fun _ _ s => (.ok .unit, s)) ()
  -- The last act but one is the assignment.
  have hact : (((Course.runProgram shadowing "f" [.int 3]).moments
      (fun _ _ s => (.ok .unit, s)) () Store.initial)[21]?).map Prod.fst =
        some (.assign 2 "x" (.int 3)) := by cbv
  obtain ⟨⟨act, later⟩, hmoment, rfl : act = _⟩ := Option.map_eq_some_iff.mp hact
  obtain ⟨earlier, hearlier, hlater, -, hchange⟩ := hmoments 21 _ later hmoment
  have hpath : (stores[21]?).map (·.path 2) = some [2, 1, 0] := by cbv
  have hbefore : (stores[21]?).bind (·.bindingAt? 1 "x") = some ⟨.int 2, true⟩ := by cbv
  have hafter : (stores[22]?).bind (·.bindingAt? 1 "x") = some ⟨.int 3, true⟩ := by cbv
  rw [hearlier] at hpath hbefore
  rw [hlater] at hafter
  refine ⟨earlier, later, _, hearlier, hlater, hchange 1 "x", Option.some.inj hpath, hbefore, hafter,
    hlast, ?_, by cbv, by cbv⟩
  rcases List.mem_cons.mp (List.mem_of_getLast? hlast) with heq | hmem
  · exact (congrArg Store.initial.Grows heq).mpr (.refl _)
  · exact List.rel_of_pairwise_cons hpairwise hmem

end Polyglot.Script
