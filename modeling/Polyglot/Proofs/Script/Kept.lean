import Polyglot.Proofs.Script.Closed

/-!
# Properties of data along runs

What scripts keep of their data (`Datum.IsKept`) holds of all values in a run: if it holds of all that is
bound (`Store.Every`) when an expression is evaluated, then it holds of the value and again of all that
is bound (`eval_keeps`), and so for whole runs (`runProgram_keeps`), as far as it holds of what comes
from outside, the arguments and the replies to calls.
-/

namespace Polyglot.Script

/-! ### Scopes -/

/-- Whether all that is bound has a property. -/
def Store.Every (Q : Datum → Prop) (store : Store) : Prop :=
  ∀ (i : ScopeId) (scope : Scope), store.scopes[i]? = some scope →
    ∀ b ∈ scope.bindings, Q b.2.value

namespace Store

variable {Q : Datum → Prop} {store : Store}

theorem every_initial : initial.Every Q := by
  intro i scope h b hb
  cases i with
  | zero =>
    obtain rfl := Option.some.inj h
    cases hb
  | succ i => cases h

theorem Every.bindingAt? (h : store.Every Q) {scope : ScopeId} {name : String} {b : Binding}
    (hb : store.bindingAt? scope name = some b) : Q b.value := by
  obtain ⟨s, hs, hfind⟩ := Option.bind_eq_some_iff.mp hb
  -- What is looked up is one of the bindings of the scope.
  obtain ⟨before, after, hbindings, -⟩ := List.lookup_eq_some_iff.mp hfind
  exact h scope s hs (name, b) (hbindings ▸ List.mem_append_right _ List.mem_cons_self)

theorem Every.lookup? (h : store.Every Q) {scope : ScopeId} {name : String} {d : Datum}
    (hd : store.lookup? scope name = some d) : Q d := by
  obtain ⟨⟨owner, b⟩, hresolve, rfl⟩ := Option.map_eq_some_iff.mp hd
  obtain ⟨s, _, hs⟩ := List.exists_of_findSome?_eq_some hresolve
  obtain ⟨c, hc, heq⟩ := Option.map_eq_some_iff.mp hs
  obtain ⟨-, rfl⟩ := Prod.mk.inj heq
  exact h.bindingAt? hc

theorem Every.openScope (h : store.Every Q) (scope : ScopeId) :
    (store.openScope scope).2.Every Q := by
  intro i s hs b hb
  rw [Store.openScope, Array.getElem?_push] at hs
  split at hs
  · obtain rfl := Option.some.inj hs
    cases hb
  · exact h i s hs b hb

theorem Every.modify (h : store.Every Q) (scope : ScopeId) {f : Scope → Scope}
    (hf : ∀ s : Scope, (∀ b ∈ s.bindings, Q b.2.value) → ∀ b ∈ (f s).bindings, Q b.2.value) :
    Every Q { store with scopes := store.scopes.modify scope f } := by
  intro i s hs
  rw [Array.getElem?_modify] at hs
  split at hs
  · obtain ⟨s', hs', rfl⟩ := Option.map_eq_some_iff.mp hs
    exact hf s' (h i s' hs')
  · exact h i s hs

theorem Every.bind (h : store.Every Q) (scope : ScopeId) (name : String) {binding : Binding}
    (hb : Q binding.value) : (store.bind scope name binding).Every Q :=
  h.modify scope fun _ hs => List.forall_mem_cons.mpr ⟨hb, hs⟩

theorem Every.replace (h : store.Every Q) (scope : ScopeId) (name : String) {value : Datum}
    (hv : Q value) : (store.replace scope name value).Every Q := by
  refine h.modify scope fun s hs b hb => ?_
  obtain ⟨⟨n, c⟩, hc, rfl⟩ := List.mem_map.mp hb
  by_cases hn : n = name
  · simpa [hn] using hv
  · simpa [hn] using hs (n, c) hc

end Store

/-! ### Runs -/

namespace Eval

variable {Q : Datum → Prop} {Reply : Except Fault Value → Prop}

theorem keeps_callBack (hreply : ∀ v, Reply (.ok v) → Q (.ofValue v)) (arguments : List Datum) :
    Keeps Reply (Store.Every Q) Q (callBack arguments) := by
  intro store hs
  rw [run_callBack]
  split
  · exact ⟨hs, by rintro _ ⟨⟩⟩
  · split
    · exact ⟨hs, by rintro _ ⟨⟩⟩
    · intro reply hr
      cases reply with
      | ok v => exact ⟨hs, fun _ hd => Except.ok.inj hd ▸ hreply v hr⟩
      | error fault => exact ⟨hs, by rintro _ ⟨⟩⟩

/-- A property of data that scripts keep is kept by all parts of a run. -/
theorem closed_keeps (hQ : Datum.IsKept Q) (hreply : ∀ v, Reply (.ok v) → Q (.ofValue v)) :
    Closed Q fun _ P x => Keeps Reply (Store.Every Q) P x where
  kept := hQ
  pure := .pure
  throw := .throw
  bind := .bind
  get := Keeps.get.mono fun _ hs _ _ _ hv => hs.lookup? hv
  openScope scope := .modifyGet fun _ hs => ⟨trivial, hs.openScope scope⟩
  define scope name value hv mutable := by
    refine Keeps.get.bind fun s _ => ?_
    split
    · exact .fail _
    · exact .modify fun _ hs => hs.bind scope name hv
  assign scope name value hv := by
    refine Keeps.get.bind fun s _ => ?_
    split
    · exact .fail _
    · split
      · exact .modify fun _ hs => hs.replace _ name hv
      · exact .fail _
  makeClosure scope function :=
    .map (P := fun _ => True) (.modifyGet fun _ hs => ⟨trivial, hs⟩) fun c _ => hQ.closure c
  -- The count of running functions is no part of what is bound.
  counted h := .counted (fun _ _ hs => hs) h
  callBack _ := keeps_callBack hreply _

end Eval

section

variable {Q : Datum → Prop} {Reply : Except Fault Value → Prop} (hQ : Datum.IsKept Q)
  (hreply : ∀ v, Reply (.ok v) → Q (.ofValue v))

include hQ hreply

/-- The values of expressions have what all that is bound has. -/
theorem eval_keeps (spare : Nat) (scope : ScopeId) (e : Expr) :
    Eval.Keeps Reply (Store.Every Q) Q (eval (callWithin spare) scope e) :=
  (Eval.closed_keeps hQ hreply).eval ((Eval.closed_keeps hQ hreply).callWithin spare) scope e

/-- The results of runs have what the arguments and the replies have. -/
theorem runProgram_keeps (program : Program) (name : String) {arguments : List Datum}
    (ha : ∀ x ∈ arguments, Q x) :
    Eval.Keeps Reply (Store.Every Q) Q (runProgram program name arguments) :=
  (Eval.closed_keeps hQ hreply).runProgram program name ha

end

end Polyglot.Script
