import Polyglot.Proofs.Script.Reading

/-!
# What readers make of given tokens

`Reads.Gives` and `Takes.Gives` say what a reader makes of tokens of given kinds, whatever lines
they stand on: it yields a value and leaves tokens of given kinds if a condition holds, and it fails
since too much is nested if not.  There is a rule for each of the ways in which readers are put
together.  The conditions of readers in a row are joined, so that the first one that fails decides.
-/

namespace Polyglot.Script

variable {α β σ : Type} {P Q : Prop} {a : α} {b : β} {k : Kind} {ks mid rest : List Kind}

/-! ### Outcomes -/

section

variable {left left' : List Token → Prop}

/-- Whether an outcome is a value with tokens of the given kinds left if a condition holds, and the
mistake that too much is nested if not. -/
structure Ends (outcome : Except LocatedMistake (α × { rest : List Token // left rest })) (P : Prop)
    (a : α) (rest : List Kind) : Prop where
  /-- A value and tokens. -/
  ok : P → ∃ r, outcome = .ok (a, r) ∧ r.val.map Token.kind = rest
  /-- A mistake. -/
  tooDeep : ¬P → ∃ line kind, outcome = .error ⟨line, .tooDeep kind⟩

variable {x : Except LocatedMistake (α × { rest : List Token // left rest })}
  {y : Except LocatedMistake (β × { rest : List Token // left' rest })}

theorem Ends.congr (h : Ends x P a rest) (hP : P ↔ Q) : Ends x Q a rest :=
  ⟨fun hQ => h.ok (hP.mpr hQ), fun hQ => h.tooDeep fun hp => hQ (hP.mp hp)⟩

theorem Ends.of_ok {r : { rest : List Token // left rest }} (hr : r.val.map Token.kind = rest) :
    Ends (.ok (a, r)) True a rest :=
  ⟨fun _ => ⟨r, rfl, hr⟩, fun hfalse => absurd trivial hfalse⟩

/-- An outcome that has the same mistakes as another one, and values that come from its values. -/
theorem Ends.map (h : Ends x P a rest) (herror : ∀ m, x = .error m → y = .error m)
    (hok : ∀ r, x = .ok (a, r) → ∃ hleft, y = .ok (b, ⟨r.val, hleft⟩)) : Ends y P b rest := by
  refine ⟨fun hP => ?_, fun hP => ?_⟩
  · obtain ⟨r, hread, hr⟩ := h.ok hP
    obtain ⟨hleft, hy⟩ := hok r hread
    exact ⟨_, hy, hr⟩
  · obtain ⟨line, kind, hfail⟩ := h.tooDeep hP
    exact ⟨line, kind, herror _ hfail⟩

/-- An outcome that has the mistakes of a first one, and is decided by what comes next if there are
none. -/
theorem Ends.seq (h : Ends x P a mid) (herror : ∀ m, x = .error m → y = .error m)
    (hok : P → ∀ r, x = .ok (a, r) → r.val.map Token.kind = mid → Ends y Q b rest) :
    Ends y (P ∧ Q) b rest := by
  by_cases hP : P
  · obtain ⟨r, hread, hr⟩ := h.ok hP
    exact (hok hP r hread hr).congr (and_iff_right hP).symm
  · obtain ⟨line, kind, hfail⟩ := h.tooDeep hP
    exact ⟨fun hPQ => absurd hPQ.1 hP, fun _ => ⟨line, kind, herror _ hfail⟩⟩

end

/-- What a reader makes of all tokens of the given kinds. -/
def Reads.Gives (p : Reads α) (ks : List Kind) (P : Prop) (a : α) (rest : List Kind) : Prop :=
  ∀ ts, ts.map Token.kind = ks → Ends (p ts) P a rest

/-- What a reader that takes tokens makes of all tokens of the given kinds. -/
def Takes.Gives (p : Takes α) (ks : List Kind) (P : Prop) (a : α) (rest : List Kind) : Prop :=
  ∀ ts, ts.map Token.kind = ks → Ends (p ts) P a rest

theorem kind_headD (ts : List Token) :
    (ts.headD ⟨.eof, 0⟩).kind = (ts.map Token.kind).headD .eof := by
  cases ts <;> rfl

theorem exists_cons_of_map_kind {ts : List Token} (h : ts.map Token.kind = k :: ks) :
    ∃ line tail, ts = ⟨k, line⟩ :: tail ∧ tail.map Token.kind = ks := by
  obtain ⟨t, tail, rfl, rfl, htail⟩ := List.map_eq_cons_iff.mp h
  exact ⟨t.line, tail, rfl, htail⟩

/-! ### Readers -/

namespace Reads

theorem Gives.congr {p : Reads α} (h : p.Gives ks P a rest) (hP : P ↔ Q) : p.Gives ks Q a rest :=
  fun ts hts => (h ts hts).congr hP

theorem Gives.pure : Reads.Gives (Pure.pure a) rest True a rest :=
  fun _ hts => .of_ok hts

theorem Gives.peek : Reads.peek.Gives ks True (ks.headD .eof) ks := by
  intro ts hts
  rw [Reads.peek, kind_headD, hts]
  exact .of_ok hts

theorem Gives.bind {p : Reads α} {q : α → Reads β} (hp : p.Gives ks P a mid)
    (hq : P → (q a).Gives mid Q b rest) : Reads.Gives (p >>= q) ks (P ∧ Q) b rest := by
  intro ts hts
  change Ends (Reads.bind p q ts) _ _ _
  refine (hp ts hts).seq (fun m hm => ?_) fun hP r hread hr =>
    (hq hP r.val hr).map (fun m hm => ?_) fun r' hread' => ⟨?_, ?_⟩
  · rw [Reads.bind, hm]
  · rw [Reads.bind, hread]
    dsimp only
    rw [hm]
  · exact Nat.le_trans r'.property r.property
  · rw [Reads.bind, hread]
    dsimp only
    rw [hread']

theorem Gives.bind_pure {p : Reads α} (hp : p.Gives ks P a rest) (f : α → β) :
    Reads.Gives (p >>= fun x => Pure.pure (f x)) ks P (f a) rest :=
  (hp.bind fun _ => Gives.pure (a := f a)).congr (iff_of_eq (and_true P))

end Reads

namespace Takes

theorem Gives.congr {p : Takes α} (h : p.Gives ks P a rest) (hP : P ↔ Q) : p.Gives ks Q a rest :=
  fun ts hts => (h ts hts).congr hP

theorem Gives.tooDeep : (Takes.fail .tooDeep).Gives ks False a rest :=
  fun _ _ => ⟨False.elim, fun _ => ⟨_, _, rfl⟩⟩

theorem Gives.token : Takes.token.Gives (k :: rest) True k rest := by
  intro ts hts
  obtain ⟨line, tail, rfl, htail⟩ := exists_cons_of_map_kind hts
  exact .of_ok htail

theorem Gives.reads {p : Takes α} (h : p.Gives ks P a rest) : p.reads.Gives ks P a rest := by
  intro ts hts
  refine (h ts hts).map (fun m hm => ?_) fun r hread => ⟨Nat.le_of_lt r.property, ?_⟩
  · rw [Takes.reads, hm]
  · rw [Takes.reads, hread]

theorem Gives.andThen {p : Takes α} {q : α → Reads β} (hp : p.Gives ks P a mid)
    (hq : P → (q a).Gives mid Q b rest) : (p.andThen q).Gives ks (P ∧ Q) b rest := by
  intro ts hts
  refine (hp ts hts).seq (fun m hm => ?_) fun hP r hread hr =>
    (hq hP r.val hr).map (fun m hm => ?_) fun r' hread' => ⟨?_, ?_⟩
  · rw [Takes.andThen, hm]
  · rw [Takes.andThen, hread]
    dsimp only
    rw [hm]
  · exact Nat.lt_of_le_of_lt r'.property r.property
  · rw [Takes.andThen, hread]
    dsimp only
    rw [hread']

theorem Gives.after {q : Reads α} (hq : q.Gives ks P a rest) :
    (Takes.after q).Gives (k :: ks) P a rest :=
  (Gives.token.andThen fun _ => hq).congr (iff_of_eq (true_and P))

theorem Gives.choose {p : Kind → Takes α} (h : (p (ks.headD .eof)).Gives ks P a rest) :
    (Takes.choose p).Gives ks P a rest := by
  intro ts hts
  rw [Takes.choose, kind_headD, hts]
  exact h ts hts

theorem Gives.chooseByTwo {p : Kind → Kind → Takes α}
    (h : (p (ks.headD .eof) (ks.tail.headD .eof)).Gives ks P a rest) :
    (Takes.chooseByTwo p).Gives ks P a rest := by
  intro ts hts
  rw [Takes.chooseByTwo, kind_headD, kind_headD, List.map_tail, hts]
  exact h ts hts

end Takes

/-! ### Single tokens -/

theorem gives_expect (what : String) : (expect k what).Gives (k :: rest) True () rest := by
  refine .choose ?_
  rw [if_pos (by rfl)]
  exact Takes.Gives.after Reads.Gives.pure

theorem gives_expectName (what name : String) :
    (expectName what).Gives (.name name :: rest) True name rest :=
  .choose (Takes.Gives.after Reads.Gives.pure)

theorem gives_accept : (accept k).Gives (k :: rest) True true rest := by
  intro ts hts
  obtain ⟨line, tail, rfl, htail⟩ := exists_cons_of_map_kind hts
  rw [accept, if_pos rfl]
  exact .of_ok htail

theorem gives_accept_of_ne (h : ks.headD .eof ≠ k) : (accept k).Gives ks True false ks := by
  rintro (_ | ⟨t, ts⟩) rfl
  · exact .of_ok rfl
  · rw [accept, if_neg (show t.kind ≠ k from h)]
    exact .of_ok rfl

/-! ### Loops -/

section

variable {step : σ → Takes (σ ⊕ α)} {next : σ → Kind → Option (Takes σ)} {s s' result : σ}

theorem Takes.Gives.iterate_of_inr (h : (step s).Gives ks P (.inr a) rest) :
    (Takes.iterate step s).Gives ks P a rest := by
  intro ts hts
  refine (h ts hts).map (fun m hm => ?_) fun r hread => ⟨r.property, Takes.iterate_of_inr hread⟩
  rw [Takes.iterate, hm]

theorem Takes.Gives.iterate_of_inl (h : (step s).Gives ks P (.inl s') mid)
    (hrest : P → (Takes.iterate step s').Gives mid Q a rest) :
    (Takes.iterate step s).Gives ks (P ∧ Q) a rest := by
  intro ts hts
  refine (h ts hts).seq (fun m hm => ?_) fun hP r hread hr =>
    (hrest hP r.val hr).map (fun m hm => ?_) fun r' hread' => ⟨_, Takes.iterate_of_inl hread hread'⟩
  · rw [Takes.iterate, hm]
  · rw [Takes.iterate, hread]
    dsimp only
    rw [hm]

theorem Reads.Gives.repeat_of_none (h : next s (ks.headD .eof) = none) :
    (Reads.repeat next s).Gives ks True s ks := by
  intro ts hts
  rw [Reads.repeat_of_none (by rw [kind_headD, hts, h])]
  exact .of_ok hts

theorem Reads.Gives.repeat_of_some {p : Takes σ} (hnext : next s (ks.headD .eof) = some p)
    (hp : p.Gives ks P s' mid) (hrest : P → (Reads.repeat next s').Gives mid Q result rest) :
    (Reads.repeat next s).Gives ks (P ∧ Q) result rest := by
  intro ts hts
  rw [← hts, ← kind_headD] at hnext
  refine (hp ts hts).seq (fun m hm => ?_) fun hP r hread hr =>
    (hrest hP r.val hr).map (fun m hm => ?_) fun r' hread' =>
      ⟨_, Reads.repeat_of_some hnext hread hread'⟩
  · rw [Reads.repeat, hnext]
    dsimp only
    rw [hm]
  · rw [Reads.repeat, hnext]
    dsimp only
    rw [hread]
    dsimp only
    rw [hm]

end

end Polyglot.Script
