import Polyglot.Proofs.Script.Reading

/-!
# Reading no further than the end

A reader that takes the first token or looks at the next one does so whether there is one or not.
`Confined` says that this makes no difference where the tokens end with the only one that says so:
whatever follows the end, a reader either takes some of the tokens before the end and leaves the
others and the end, or it fails at one of the tokens.  A reader of the type `Takes` takes at least
one.

There is a rule for each of the ways in which readers are put together.  What is chosen by the first
tokens only has to be confined where the tokens begin so, since taking a token keeps within the
tokens only if that token is not the end.
-/

namespace Polyglot.Script

variable {α β σ : Type}

/-! ### What is left -/

/-- What a reader makes of tokens: a value and the tokens that it leaves, or a mistake. -/
abbrev Outcome (α : Type) := Except LocatedMistake (α × List Token)

namespace Reads

/-- What a reader makes of tokens, with the tokens left in a plain list. -/
def outcome (p : Reads α) (ts : List Token) : Outcome α :=
  (p ts).map fun (a, rest) => (a, rest.val)

theorem outcome_bind (p : Reads α) (q : α → Reads β) (ts : List Token) :
    (p >>= q).outcome ts = (p.outcome ts).bind fun r => (q r.1).outcome r.2 := by
  change Except.map _ (Reads.bind p q ts) = _
  unfold Reads.bind outcome
  cases p ts with
  | error m => rfl
  | ok r =>
    change _ = Except.map _ (q r.1 r.2.val)
    cases hq : q r.1 r.2.val <;> simp only [hq] <;> rfl

end Reads

namespace Takes

/-- What a reader makes of tokens, with the tokens left in a plain list. -/
def outcome (p : Takes α) (ts : List Token) : Outcome α :=
  (p ts).map fun (a, rest) => (a, rest.val)

theorem outcome_reads (p : Takes α) (ts : List Token) : p.reads.outcome ts = p.outcome ts := by
  unfold Reads.outcome Takes.outcome Takes.reads
  cases p ts <;> rfl

theorem outcome_andThen (p : Takes α) (q : α → Reads β) (ts : List Token) :
    (p.andThen q).outcome ts = (p.outcome ts).bind fun r => (q r.1).outcome r.2 := by
  unfold Takes.outcome Takes.andThen
  cases p ts with
  | error m => rfl
  | ok r =>
    change _ = Except.map _ (q r.1 r.2.val)
    cases hq : q r.1 r.2.val <;> simp only [hq] <;> rfl

theorem outcome_iterate (step : σ → Takes (σ ⊕ α)) (s : σ) (ts : List Token) :
    (iterate step s).outcome ts = ((step s).outcome ts).bind fun r =>
      match r.1 with
      | .inr a => .ok (a, r.2)
      | .inl s' => (iterate step s').outcome r.2 := by
  unfold outcome
  rw [iterate]
  cases step s ts with
  | error m => rfl
  | ok r =>
    obtain ⟨s' | a, rest⟩ := r
    · change _ = Except.map _ (iterate step s' rest.val)
      dsimp only
      cases iterate step s' rest.val <;> rfl
    · rfl

end Takes

theorem Reads.outcome_repeat (next : σ → Kind → Option (Takes σ)) (s : σ) (ts : List Token) :
    (Reads.repeat next s).outcome ts =
      match next s (ts.headD ⟨.eof, 0⟩).kind with
      | none => .ok (s, ts)
      | some p => (p.outcome ts).bind fun r => (Reads.repeat next r.1).outcome r.2 := by
  unfold outcome Takes.outcome
  rw [Reads.repeat]
  cases next s (ts.headD ⟨.eof, 0⟩).kind with
  | none => rfl
  | some p =>
    dsimp only
    cases p ts with
    | error m => rfl
    | ok r =>
      change _ = Except.map _ (Reads.repeat next r.1 r.2.val)
      dsimp only
      cases Reads.repeat next r.1 r.2.val <;> rfl

/-! ### Outcomes within the tokens -/

/-- Whether tokens end with the only one that says so. -/
structure IsEnd (before : List Token) (last : Token) : Prop where
  /-- No token before the last one says so. -/
  before : ∀ t ∈ before, t.kind ≠ .eof
  /-- The last one does. -/
  last : last.kind = .eof

/-- The token that a mistake shows, if it is one that is found in tokens. -/
def Mistake.found? : Mistake → Option Kind
  | .expected _ found => some found
  | .unexpectedToken found => some found
  | .missingInitializer found => some found
  | .tooDeep found => some found
  | _ => none

/-- Whether a mistake shows a token, on the line of this token. -/
structure LocatedMistake.IsAt (m : LocatedMistake) (t : Token) : Prop where
  /-- It shows the token. -/
  found : m.mistake.found? = some t.kind
  /-- It names the line. -/
  line : m.line = t.line

/-- Whether what is made of tokens keeps within them, whatever follows the end: a value, where at
least the given number of the tokens before the end are taken and the others are left with the end,
or a mistake at one of the tokens. -/
inductive Within (before : List Token) (last : Token) (fewest : Nat)
    (made : List Token → Outcome α) : Prop where
  /-- A value. -/
  | value (a : α) (taken left : List Token) (hbefore : taken ++ left = before)
    (hfewest : fewest ≤ taken.length) (h : ∀ more, made more = .ok (a, left ++ last :: more))
  /-- A mistake. -/
  | mistake (m : LocatedMistake) (t : Token) (ht : t ∈ before ++ [last]) (hm : m.IsAt t)
    (h : ∀ more, made more = .error m)

section

variable {before : List Token} {last : Token} {n k : Nat}

theorem IsEnd.drop (h : IsEnd before last) {taken left : List Token}
    (hbefore : taken ++ left = before) : IsEnd left last :=
  ⟨fun t ht => h.before t (hbefore ▸ List.mem_append_right taken ht), h.last⟩

theorem IsEnd.tail {t : Token} {rest : List Token} (h : IsEnd (t :: rest) last) : IsEnd rest last :=
  h.drop (List.singleton_append)

/-- What goes on with the tokens left keeps within all tokens if it keeps within these. -/
theorem Within.bind {f : List Token → Outcome α} {g : α × List Token → Outcome β}
    (hf : Within before last n f)
    (hg : ∀ a taken left, taken ++ left = before → n ≤ taken.length →
      Within left last k fun more => g (a, left ++ last :: more)) :
    Within before last (n + k) fun more => (f more).bind g := by
  cases hf with
  | value a taken left hbefore hfewest h =>
    have hbind : ∀ more, (f more).bind g = g (a, left ++ last :: more) := by
      intro more
      rw [h more]
      rfl
    cases hg a taken left hbefore hfewest with
    | value b taken' left' hleft hfewest' h' =>
      refine .value b (taken ++ taken') left' ?_ ?_ fun more => (hbind more).trans (h' more)
      · rw [List.append_assoc, hleft, hbefore]
      · rw [List.length_append]
        omega
    | mistake m t ht hm h' =>
      refine .mistake m t ?_ hm fun more => (hbind more).trans (h' more)
      rw [← hbefore, List.append_assoc]
      exact List.mem_append_right taken ht
  | mistake m t ht hm h =>
    refine .mistake m t ht hm fun more => ?_
    rw [h more]
    rfl

theorem Within.congr {f g : List Token → Outcome α} (hf : Within before last n f)
    (h : ∀ more, g more = f more) : Within before last n g := by
  have heq : g = f := funext h
  rwa [heq]

theorem Within.fewer {f : List Token → Outcome α} (hf : Within before last n f) (h : k ≤ n) :
    Within before last k f := by
  cases hf with
  | value a taken left hbefore hfewest hvalue =>
    exact .value a taken left hbefore (Nat.le_trans h hfewest) hvalue
  | mistake m t ht hm hmistake => exact .mistake m t ht hm hmistake

/-- There is a first token, which is the end if nothing is before it. -/
theorem headD_kind (more : List Token) :
    ((before ++ last :: more).headD ⟨.eof, 0⟩) = (before ++ [last]).head (by simp) := by
  cases before <;> rfl

theorem singleton_head_prefix :
    [((before ++ [last]).head (by simp)).kind] <+: (before ++ [last]).map Token.kind := by
  cases before <;> simp

/-- What fails at the first token fails at one of the tokens. -/
theorem Within.fail {mistake : Kind → Mistake} (h : ∀ kind, (mistake kind).found? = some kind) :
    Within before last n fun more =>
      let token := (before ++ last :: more).headD ⟨.eof, 0⟩
      (.error ⟨token.line, mistake token.kind⟩ : Outcome α) := by
  let first := (before ++ [last]).head (by simp)
  refine .mistake ⟨first.line, mistake first.kind⟩ first (List.head_mem _) ⟨h _, rfl⟩ fun more => ?_
  rw [headD_kind]

end

/-! ### Readers -/

/-- Whether a reader, where the tokens before the end are the given ones, takes at least one of these
or fails at one of the tokens, whatever follows the end. -/
def Takes.EndsWithin (p : Takes α) (before : List Token) (last : Token) : Prop :=
  Within before last 1 fun more => p.outcome (before ++ last :: more)

/-- Whether a reader keeps within tokens that begin with the given kinds. -/
def Reads.ConfinedFrom (ks : List Kind) (p : Reads α) : Prop :=
  ∀ before last, IsEnd before last → ks <+: (before ++ [last]).map Token.kind →
    Within before last 0 fun more => p.outcome (before ++ last :: more)

/-- Whether a reader takes at least one of the tokens that begin with the given kinds, or fails at one
of them, and in both cases keeps within them. -/
def Takes.ConfinedFrom (ks : List Kind) (p : Takes α) : Prop :=
  ∀ before last, IsEnd before last → ks <+: (before ++ [last]).map Token.kind →
    p.EndsWithin before last

/-- Whether a reader keeps within all tokens. -/
abbrev Reads.Confined (p : Reads α) : Prop := p.ConfinedFrom []

/-- Whether a reader takes at least one token or fails, and keeps within all tokens. -/
abbrev Takes.Confined (p : Takes α) : Prop := p.ConfinedFrom []

variable {k : Kind} {ks : List Kind}

/-- Tokens that do not begin with the end have a token before it. -/
theorem exists_cons_of_prefix {before : List Token} {last : Token} (h : IsEnd before last)
    (hk : k ≠ .eof) (hks : k :: ks <+: (before ++ [last]).map Token.kind) :
    ∃ t rest, before = t :: rest ∧ t.kind = k ∧ ks <+: (rest ++ [last]).map Token.kind := by
  cases before with
  | nil =>
    have hlast : k = last.kind := (List.cons_prefix_cons.mp hks).1
    exact absurd (hlast.trans h.last) hk
  | cons t rest =>
    rw [List.cons_append, List.map_cons] at hks
    obtain ⟨hkind, hrest⟩ := List.cons_prefix_cons.mp hks
    exact ⟨t, rest, rfl, hkind.symm, hrest⟩

namespace Reads

theorem ConfinedFrom.weaken {p : Reads α} (h : p.Confined) : p.ConfinedFrom ks :=
  fun before last hend _ => h before last hend List.nil_prefix

theorem confined_pure (a : α) : Reads.Confined (pure a) :=
  fun before _ _ _ => .value a [] before rfl (Nat.zero_le _) fun _ => rfl

theorem confined_fail {mistake : Kind → Mistake}
    (h : ∀ kind, (mistake kind).found? = some kind) : (fail mistake : Reads α).Confined :=
  fun _ _ _ _ => Within.fail h

theorem ConfinedFrom.bind {p : Reads α} {q : α → Reads β} (hp : p.ConfinedFrom ks)
    (hq : ∀ a, (q a).Confined) : Reads.ConfinedFrom ks (p >>= q) := by
  intro before last hend hks
  have hbind := (hp before last hend hks).bind (g := fun r => (q r.1).outcome r.2)
    fun a taken left hbefore _ => hq a left last (hend.drop hbefore) List.nil_prefix
  exact hbind.congr fun more => outcome_bind p q _

/-- The first token decides how to go on. -/
theorem confined_peek_bind {q : Kind → Reads β} (hq : ∀ kind, (q kind).ConfinedFrom [kind]) :
    Reads.Confined (peek >>= q) := by
  intro before last hend _
  refine (hq _ before last hend singleton_head_prefix).congr fun more => ?_
  rw [outcome_bind]
  change (q ((before ++ last :: more).headD ⟨.eof, 0⟩).kind).outcome _ = _
  rw [headD_kind]

end Reads

namespace Takes

theorem ConfinedFrom.weaken {p : Takes α} (h : p.Confined) : p.ConfinedFrom ks :=
  fun before last hend _ => h before last hend List.nil_prefix

theorem ConfinedFrom.endsWithin {p : Takes α} (h : p.Confined) {before : List Token} {last : Token}
    (hend : IsEnd before last) : p.EndsWithin before last :=
  h before last hend List.nil_prefix

theorem confined_fail {mistake : Kind → Mistake}
    (h : ∀ kind, (mistake kind).found? = some kind) : (fail mistake : Takes α).Confined :=
  fun _ _ _ _ => Within.fail h

theorem ConfinedFrom.reads {p : Takes α} (h : p.ConfinedFrom ks) : p.reads.ConfinedFrom ks := by
  intro before last hend hks
  exact ((h before last hend hks).fewer (Nat.zero_le _)).congr fun more => outcome_reads p _

theorem ConfinedFrom.andThen {p : Takes α} {q : α → Reads β} (hp : p.ConfinedFrom ks)
    (hq : ∀ a, (q a).Confined) : (p.andThen q).ConfinedFrom ks := by
  intro before last hend hks
  have hbind := (hp before last hend hks).bind (g := fun r => (q r.1).outcome r.2)
    fun a taken left hbefore _ => hq a left last (hend.drop hbefore) List.nil_prefix
  exact hbind.congr fun more => outcome_andThen p q _

end Takes

/-- The first token is taken, which must not be the end, and the tokens behind it go on with what comes
next. -/
theorem Reads.ConfinedFrom.after {q : Reads α} (hq : q.ConfinedFrom ks) (hk : k ≠ .eof) :
    (Takes.after q).ConfinedFrom (k :: ks) := by
  intro before last hend hks
  obtain ⟨t, rest, rfl, -, hrest⟩ := exists_cons_of_prefix hend hk hks
  have htoken : Within (t :: rest) last 1 fun more => Takes.token.outcome (t :: rest ++ last :: more) :=
    .value t.kind [t] rest rfl (Nat.le_refl 1) fun _ => rfl
  have hafter : Within (t :: rest) last 1 fun more =>
      (q.outcome (rest ++ last :: more)) := by
    cases hq rest last hend.tail hrest with
    | value a taken left hbefore _ hvalue =>
      exact .value a (t :: taken) left (by rw [← hbefore]; rfl) (by simp) hvalue
    | mistake m t' ht hm hmistake =>
      exact .mistake m t' (List.mem_cons_of_mem t ht) hm hmistake
  exact hafter.congr fun more => Takes.outcome_andThen Takes.token (fun _ => q) _

namespace Takes

theorem confined_token (hk : k ≠ .eof) : token.ConfinedFrom [k] := by
  intro before last hend hks
  obtain ⟨t, rest, rfl, -, -⟩ := exists_cons_of_prefix hend hk hks
  exact .value t.kind [t] rest rfl (Nat.le_refl 1) fun _ => rfl

theorem confined_choose {p : Kind → Takes α} (hp : ∀ kind, (p kind).ConfinedFrom [kind]) :
    (choose p).Confined := by
  intro before last hend _
  refine (hp _ before last hend singleton_head_prefix).congr fun more => ?_
  change (p ((before ++ last :: more).headD ⟨.eof, 0⟩).kind).outcome _ = _
  rw [headD_kind]

/-- Two tokens may decide if the second one makes no difference at the end, where there is none. -/
theorem confined_chooseByTwo {p : Kind → Kind → Takes α} {q : Takes α}
    (hp : ∀ first second, first ≠ .eof → (p first second).ConfinedFrom [first, second])
    (hq : q.Confined) (hlast : ∀ second, p .eof second = q) : (chooseByTwo p).Confined := by
  intro before last hend _
  cases before with
  | nil =>
    refine (hq [] last hend List.nil_prefix).congr fun more => ?_
    change (p last.kind _).outcome _ = _
    rw [hend.last, hlast]
  | cons t rest =>
    let second := (rest ++ [last]).head (by simp)
    have hprefix : [t.kind, second.kind] <+: (t :: rest ++ [last]).map Token.kind := by
      cases rest <;> simp [second]
    have hfirst : t.kind ≠ .eof := hend.before t List.mem_cons_self
    refine (hp t.kind second.kind hfirst (t :: rest) last hend hprefix).congr fun more => ?_
    change (p t.kind ((rest ++ last :: more).headD ⟨.eof, 0⟩).kind).outcome _ = _
    rw [headD_kind]

/-- What tells two readers apart may look ahead as far as the end. -/
theorem confined_ite {test : List Token → Bool} {p q : Takes α}
    (htest : ∀ before last more, IsEnd before last →
      test (before ++ last :: more) = test (before ++ [last]))
    (hp : p.Confined) (hq : q.Confined) :
    Takes.Confined fun ts => if test ts then p ts else q ts := by
  intro before last hend hks
  cases hcase : test (before ++ [last]) with
  | true =>
    refine (hp before last hend hks).congr fun more => ?_
    change Except.map _ (if test (before ++ last :: more) then _ else _) = _
    rw [htest before last more hend, hcase, if_pos rfl]
    rfl
  | false =>
    refine (hq before last hend hks).congr fun more => ?_
    change Except.map _ (if test (before ++ last :: more) then _ else _) = _
    rw [htest before last more hend, hcase, if_neg (by decide)]
    rfl

/-! ### Loops -/

/-- A loop of which each turn takes some of the tokens before the end comes to its own end there. -/
theorem confined_iterate {step : σ → Takes (σ ⊕ α)} (hstep : ∀ s, (step s).Confined) (s : σ) :
    (iterate step s).Confined := by
  intro before last hend _
  -- By induction on the tokens before the end, of which each turn takes some.
  induction hn : before.length using Nat.strongRecOn generalizing s before with
  | ind n ih =>
    have hturn := (hstep s before last hend List.nil_prefix).bind (k := 0)
      (g := fun r => match r.1 with
        | .inr a => .ok (a, r.2)
        | .inl s' => (iterate step s').outcome r.2) ?_
    · exact hturn.congr fun more => outcome_iterate step s _
    · intro result taken left hbefore htaken
      cases result with
      | inr a => exact .value a [] left rfl (Nat.zero_le _) fun _ => rfl
      | inl s' =>
        have hlength : taken.length + left.length = before.length := by
          rw [← hbefore, List.length_append]
        have hleft := ih left.length (by omega) s' left (hend.drop hbefore) List.nil_prefix rfl
        exact hleft.fewer (Nat.zero_le _)

end Takes

namespace Reads

variable {next : σ → Kind → Option (Takes σ)}

theorem confined_repeat
    (hnext : ∀ s kind p, next s kind = some p → p.ConfinedFrom [kind]) (s : σ) :
    (Reads.repeat next s).Confined := by
  intro before last hend _
  induction hn : before.length using Nat.strongRecOn generalizing s before with
  | ind n ih =>
    let first := (before ++ [last]).head (by simp)
    have houtcome : ∀ more, (Reads.repeat next s).outcome (before ++ last :: more) =
        match next s first.kind with
        | none => .ok (s, before ++ last :: more)
        | some p => (p.outcome (before ++ last :: more)).bind fun r =>
          (Reads.repeat next r.1).outcome r.2 := by
      intro more
      rw [outcome_repeat, headD_kind]
    cases hp : next s first.kind with
    | none =>
      rw [hp] at houtcome
      exact .value s [] before rfl (Nat.zero_le _) houtcome
    | some p =>
      rw [hp] at houtcome
      refine Within.congr ?_ houtcome
      have hturn := (hnext s _ p hp before last hend singleton_head_prefix).bind (k := 0)
        (g := fun r => (Reads.repeat next r.1).outcome r.2) ?_
      · exact hturn.fewer (Nat.zero_le _)
      · intro s' taken left hbefore htaken
        have hlength : taken.length + left.length = before.length := by
          rw [← hbefore, List.length_append]
        exact ih left.length (by omega) s' left (hend.drop hbefore) List.nil_prefix rfl

/-- A loop stops only at a token that begins no further turn. -/
theorem next_of_outcome_repeat {s result : σ} {ts rest : List Token}
    (h : (Reads.repeat next s).outcome ts = .ok (result, rest)) :
    next result (rest.headD ⟨.eof, 0⟩).kind = none := by
  induction hn : ts.length using Nat.strongRecOn generalizing s ts with
  | ind n ih =>
    rw [outcome_repeat] at h
    split at h
    · rename_i hnone
      cases h
      exact hnone
    · rename_i p hp
      unfold Takes.outcome at h
      cases hread : p ts with
      | error m =>
        rw [hread] at h
        cases h
      | ok r =>
        rw [hread] at h
        exact ih r.2.val.length (hn ▸ r.2.property) h rfl

end Reads

/-! ### Single tokens -/

theorem confined_expect (hk : k ≠ .eof) (what : String) : (expect k what).Confined := by
  refine Takes.confined_choose fun found => ?_
  by_cases hfound : found = k
  · rw [if_pos hfound]
    exact (Takes.confined_token (hfound ▸ hk)).andThen fun _ => Reads.confined_pure ()
  · rw [if_neg hfound]
    exact (Takes.confined_fail fun _ => rfl).weaken

theorem confined_expectName (what : String) : (expectName what).Confined := by
  refine Takes.confined_choose fun found => ?_
  split
  · exact (Takes.confined_token Kind.noConfusion).andThen fun _ => Reads.confined_pure _
  · exact (Takes.confined_fail fun _ => rfl).weaken

theorem confined_accept (hk : k ≠ .eof) : (accept k).Confined := by
  intro before last hend _
  cases before with
  | nil =>
    have hlast : last.kind ≠ k := fun h => hk (h.symm.trans hend.last)
    refine .value false [] [] rfl (Nat.zero_le _) fun more => ?_
    unfold Reads.outcome accept
    simp only [List.nil_append, if_neg hlast]
    rfl
  | cons t rest =>
    by_cases ht : t.kind = k
    · refine .value true [t] rest rfl (Nat.zero_le _) fun more => ?_
      unfold Reads.outcome accept
      simp only [List.cons_append, if_pos ht]
      rfl
    · refine .value false [] (t :: rest) rfl (Nat.zero_le _) fun more => ?_
      unfold Reads.outcome accept
      simp only [List.cons_append, if_neg ht]
      rfl

end Polyglot.Script
