import Polyglot.Script.Tree.Reading

/-!
# What readers yield

`Reads.Yields` and `Takes.Yields` say that whatever a reader makes of tokens has a property.  There is a
rule for each of the ways in which readers are put together; a loop yields what each of its turns keeps.
-/

namespace Polyglot.Script

variable {α β σ : Type} {P : α → Prop} {Q : β → Prop}

/-- Whether all that a reader yields has a property. -/
def Reads.Yields (P : α → Prop) (p : Reads α) : Prop :=
  ∀ ts a rest, p ts = .ok (a, rest) → P a

/-- Whether all that a reader which takes tokens yields has a property. -/
def Takes.Yields (P : α → Prop) (p : Takes α) : Prop :=
  ∀ ts a rest, p ts = .ok (a, rest) → P a

namespace Reads

theorem Yields.any (p : Reads α) : p.Yields fun _ => True := fun _ _ _ _ => trivial

theorem Yields.mono {R : α → Prop} {p : Reads α} (hp : p.Yields P) (h : ∀ a, P a → R a) :
    p.Yields R :=
  fun ts a rest hread => h a (hp ts a rest hread)

theorem Yields.pure {a : α} (h : P a) : Reads.Yields P (pure a) := by
  rintro ts b rest ⟨⟩
  exact h

theorem Yields.fail (mistake : Kind → Mistake) : Reads.Yields P (fail mistake) := by
  rintro ts a rest ⟨⟩

theorem Yields.bind {p : Reads α} {q : α → Reads β} (hp : p.Yields P)
    (hq : ∀ a, P a → (q a).Yields Q) : Reads.Yields Q (p >>= q) := by
  intro ts b rest h
  change Reads.bind p q ts = _ at h
  rw [Reads.bind] at h
  split at h
  · cases h
  · rename_i a rest' hread
    split at h
    · cases h
    · rename_i hread'
      obtain ⟨rfl, -⟩ := Prod.mk.inj (Except.ok.inj h)
      exact hq a (hp ts a rest' hread) _ _ _ hread'

end Reads

namespace Takes

theorem Yields.mono {R : α → Prop} {p : Takes α} (hp : p.Yields P) (h : ∀ a, P a → R a) :
    p.Yields R :=
  fun ts a rest hread => h a (hp ts a rest hread)

theorem Yields.any (p : Takes α) : p.Yields fun _ => True := fun _ _ _ _ => trivial

theorem Yields.fail (mistake : Kind → Mistake) : Takes.Yields P (fail mistake) := by
  rintro ts a rest ⟨⟩

theorem Yields.reads {p : Takes α} (hp : p.Yields P) : p.reads.Yields P := by
  intro ts a rest h
  rw [Takes.reads] at h
  split at h
  · cases h
  · rename_i hread
    obtain ⟨rfl, -⟩ := Prod.mk.inj (Except.ok.inj h)
    exact hp _ _ _ hread

theorem Yields.andThen {p : Takes α} {q : α → Reads β} (hp : p.Yields P)
    (hq : ∀ a, P a → (q a).Yields Q) : (p.andThen q).Yields Q := by
  intro ts b rest h
  rw [Takes.andThen] at h
  split at h
  · cases h
  · rename_i a rest' hread
    split at h
    · cases h
    · rename_i hread'
      obtain ⟨rfl, -⟩ := Prod.mk.inj (Except.ok.inj h)
      exact hq a (hp ts a rest' hread) _ _ _ hread'

theorem Yields.after {q : Reads α} (hq : q.Yields P) : (after q).Yields P :=
  (Yields.any token).andThen fun _ _ => hq

theorem Yields.choose {p : Kind → Takes α} (hp : ∀ kind, (p kind).Yields P) :
    (choose p).Yields P :=
  fun ts => hp _ ts

theorem Yields.chooseByTwo {p : Kind → Kind → Takes α} (hp : ∀ a b, (p a b).Yields P) :
    (chooseByTwo p).Yields P :=
  fun ts => hp _ _ ts

end Takes

/-! ### Loops -/

/-- A loop keeps what each of its turns keeps, and yields what the last one does. -/
theorem Takes.Yields.iterate {step : σ → Takes (σ ⊕ α)} {I : σ → Prop}
    (hstep : ∀ s, I s → (step s).Yields (Sum.elim I P)) {s : σ} (hs : I s) :
    (Takes.iterate step s).Yields P := by
  intro ts
  -- By induction on the tokens, of which each turn takes some.
  obtain ⟨n, hn⟩ : ∃ n, ts.length = n := ⟨_, rfl⟩
  induction n using Nat.strongRecOn generalizing s ts with
  | _ n ih =>
    intro a rest h
    rw [Takes.iterate] at h
    split at h
    · cases h
    · rename_i hread
      obtain ⟨rfl, -⟩ := Prod.mk.inj (Except.ok.inj h)
      exact hstep s hs _ _ _ hread
    · rename_i s' rest' hread
      split at h
      · cases h
      · rename_i hread'
        obtain ⟨rfl, -⟩ := Prod.mk.inj (Except.ok.inj h)
        exact ih rest'.val.length (hn ▸ rest'.property) (hstep s hs _ _ _ hread) _ rfl _ _ hread'

theorem Reads.Yields.repeat {next : σ → Kind → Option (Takes σ)} {I : σ → Prop}
    (hnext : ∀ s kind p, I s → next s kind = some p → p.Yields I) {s : σ} (hs : I s) :
    (Reads.repeat next s).Yields I := by
  intro ts
  obtain ⟨n, hn⟩ : ∃ n, ts.length = n := ⟨_, rfl⟩
  induction n using Nat.strongRecOn generalizing s ts with
  | _ n ih =>
    intro s' rest h
    rw [Reads.repeat] at h
    split at h
    · obtain ⟨rfl, -⟩ := Prod.mk.inj (Except.ok.inj h)
      exact hs
    · rename_i p hp
      split at h
      · cases h
      · rename_i t rest' hread
        split at h
        · cases h
        · rename_i hread'
          obtain ⟨rfl, -⟩ := Prod.mk.inj (Except.ok.inj h)
          exact ih rest'.val.length (hn ▸ rest'.property) (hnext s _ p hs hp _ _ _ hread) _ rfl _ _
            hread'

/-! ### Loops, turn by turn -/

section

variable {step : σ → Takes (σ ⊕ α)} {next : σ → Kind → Option (Takes σ)} {s s' : σ}
  {ts rest rest' : List Token}

theorem Takes.iterate_of_inr {a : α} {h : rest.length < ts.length}
    (hstep : step s ts = .ok (.inr a, ⟨rest, h⟩)) :
    Takes.iterate step s ts = .ok (a, ⟨rest, h⟩) := by
  rw [Takes.iterate, hstep]

theorem Takes.iterate_of_inl {a : α} {h : rest.length < ts.length} {h' : rest'.length < rest.length}
    (hstep : step s ts = .ok (.inl s', ⟨rest, h⟩))
    (hrest : Takes.iterate step s' rest = .ok (a, ⟨rest', h'⟩)) :
    Takes.iterate step s ts = .ok (a, ⟨rest', Nat.lt_trans h' h⟩) := by
  rw [Takes.iterate, hstep]
  dsimp only
  rw [hrest]

theorem Reads.repeat_of_none (hnext : next s (ts.headD ⟨.eof, 0⟩).kind = none) :
    Reads.repeat next s ts = .ok (s, ⟨ts, Nat.le_refl _⟩) := by
  rw [Reads.repeat]
  split
  · rfl
  · rename_i hsome
    rw [hnext] at hsome
    cases hsome

theorem Reads.repeat_of_some {p : Takes σ} {result : σ} {h : rest.length < ts.length}
    {h' : rest'.length ≤ rest.length} (hnext : next s (ts.headD ⟨.eof, 0⟩).kind = some p)
    (hp : p ts = .ok (s', ⟨rest, h⟩))
    (hrest : Reads.repeat next s' rest = .ok (result, ⟨rest', h'⟩)) :
    Reads.repeat next s ts = .ok (result, ⟨rest', Nat.le_trans h' (Nat.le_of_lt h)⟩) := by
  rw [Reads.repeat]
  split
  · rename_i hnone
    rw [hnext] at hnone
    cases hnone
  · rename_i q hq
    obtain rfl := Option.some.inj (hnext.symm.trans hq)
    rw [hp]
    dsimp only
    rw [hrest]

end

end Polyglot.Script
