import Mathlib
import Polyglot.Proofs.Script.Reading
import Polyglot.Script.Tree.OfTokens

/-!
# How deep the trees of scripts are

The limit on nesting counts the statements, expressions and operands that are read inside one another.
What it bounds in the tree of every script that is accepted is less than all paths
(`ofTokens_reach`): a loop that wraps what has been read counts its own turns only, and so does each
level of precedence, so chains inside chains add up to as much as the square of the limit; and the
further cases of an `if` are not counted at all, so no number bounds the tree
(`ofTokens_furtherCases`, `ofTokens_beyond_maxLevel`).

`Expr.reach` and `Stmt.reach` count what stands on a path, with a `Tally` for the links of chains and for
further cases.  What is read on a level is bounded by what is read on the level inside it, one lemma
for each reader, and then by induction on the levels (`level_within`).
-/

namespace Polyglot.Script

/-! ### Paths -/

/-- What counts on a path of a syntax tree where a chain goes on.  All other statements and
expressions count one. -/
structure Tally where
  /-- What an operator counts below another one, and a call or an access above what it applies to. -/
  link : Nat
  /-- What an `if` counts that stands alone after an `else`. -/
  case : Nat

namespace Tally

/-- Neither links nor further cases count. -/
def nested : Tally := ⟨0, 0⟩

/-- Links count, but further cases do not. -/
def chained : Tally := ⟨1, 0⟩

/-- Every statement and every expression counts. -/
def every : Tally := ⟨1, 1⟩

end Tally

mutual

/-- The most that statements and expressions count on a path from an expression to a leaf, where the
expression counts the given number if it is an operator. -/
def Expr.reach (t : Tally) (own : Nat) : Expr → Nat
  | .literal _ => 1
  | .name _ => 1
  | .array items => 1 + Expr.reachAll t items
  | .call callee arguments => max (t.link + callee.reach t 1) (1 + Expr.reachAll t arguments)
  | .index target position => max (t.link + target.reach t 1) (1 + position.reach t 1)
  | .member target _ => t.link + target.reach t 1
  | .unary _ operand => 1 + operand.reach t 1
  | .binary _ left right => own + max (left.reach t t.link) (right.reach t t.link)
  | .logical _ left right => own + max (left.reach t t.link) (right.reach t t.link)
  | .conditional condition yes no =>
    1 + max (condition.reach t t.link) (max (yes.reach t 1) (no.reach t 1))
  | .function f => 1 + f.reach t

/-- The most that counts on a path from one of several expressions. -/
def Expr.reachAll (t : Tally) : List Expr → Nat
  | [] => 0
  | e :: es => max (e.reach t 1) (Expr.reachAll t es)

/-- The most that counts on a path from an expression if there is one. -/
def Expr.reachOption (t : Tally) : Option Expr → Nat
  | none => 0
  | some e => e.reach t 1

/-- The most that counts on a path in a function. -/
def Function.reach (t : Tally) : Function → Nat
  | .mk _ _ body => body.reach t

/-- The most that counts on a path in the body of a function. -/
def Body.reach (t : Tally) : Body → Nat
  | .block statements => Stmt.reachAll t statements
  | .expr value => value.reach t 1

/-- The most that statements and expressions count on a path from a statement to a leaf, where the
statement counts the given number if it is an `if`. -/
def Stmt.reach (t : Tally) (own : Nat) : Stmt → Nat
  | .bind _ _ value => 1 + Expr.reachOption t value
  | .assign _ value => 1 + value.reach t t.link
  | .return value => 1 + Expr.reachOption t value
  | .branch condition yes no =>
    own + max (condition.reach t 1) (max (Stmt.reachAll t yes) (Stmt.reachElse t no))
  | .each _ elements body => 1 + max (elements.reach t 1) (Stmt.reachAll t body)
  | .throw value => 1 + value.reach t 1
  | .function f => 1 + f.reach t
  | .block statements => 1 + Stmt.reachAll t statements
  | .expr value => 1 + value.reach t 1

/-- The most that counts on a path from one of several statements. -/
def Stmt.reachAll (t : Tally) : List Stmt → Nat
  | [] => 0
  | s :: rest => max (s.reach t 1) (Stmt.reachAll t rest)

/-- The most that counts on a path in what follows an `else`. -/
def Stmt.reachElse (t : Tally) : Option (List Stmt) → Nat
  | none => 0
  | some [] => 0
  | some [s] => s.reach t t.case
  | some (s :: r :: rest) => max (s.reach t 1) (max (r.reach t 1) (Stmt.reachAll t rest))

end

section

variable {t : Tally} {n : Nat}

theorem Expr.reachAll_le_iff {es : List Expr} :
    Expr.reachAll t es ≤ n ↔ ∀ e ∈ es, e.reach t 1 ≤ n := by
  induction es with
  | nil => simp [Expr.reachAll]
  | cons e es ih => rw [Expr.reachAll, Nat.max_le, ih, List.forall_mem_cons]

theorem Stmt.reachAll_le_iff {ss : List Stmt} :
    Stmt.reachAll t ss ≤ n ↔ ∀ s ∈ ss, s.reach t 1 ≤ n := by
  induction ss with
  | nil => simp [Stmt.reachAll]
  | cons s ss ih => rw [Stmt.reachAll, Nat.max_le, ih, List.forall_mem_cons]

/-- What an expression counts itself depends on what stands above it if it is an operator. -/
theorem Expr.reach_one_le (e : Expr) (own : Nat) : e.reach t 1 ≤ 1 + e.reach t own := by
  cases e <;> simp only [Expr.reach] <;> omega

theorem Expr.reach_le_of_le_one (e : Expr) {own : Nat} (h : own ≤ 1) :
    e.reach t own ≤ e.reach t 1 := by
  cases e <;> simp only [Expr.reach] <;> omega

theorem Expr.one_le_reach (e : Expr) : 1 ≤ e.reach t 1 := by
  cases e with
  | member target property =>
    rw [Expr.reach]
    exact Nat.le_trans target.one_le_reach (Nat.le_add_left ..)
  | _ =>
    simp only [Expr.reach]
    omega

theorem Stmt.reach_le_of_le_one (s : Stmt) {own : Nat} (h : own ≤ 1) :
    s.reach t own ≤ s.reach t 1 := by
  cases s <;> simp only [Stmt.reach] <;> omega

/-- What follows an `else` counts no more than statements of a block do. -/
theorem Stmt.reachElse_le (h : t.case ≤ 1) {ss : List Stmt} (hss : ∀ s ∈ ss, s.reach t 1 ≤ n) :
    Stmt.reachElse t (some ss) ≤ n := by
  match ss with
  | [] => exact Nat.zero_le n
  | [s] =>
    rw [Stmt.reachElse]
    exact Nat.le_trans (s.reach_le_of_le_one h) (hss s List.mem_cons_self)
  | s :: r :: rest =>
    rw [Stmt.reachElse]
    exact Stmt.reachAll_le_iff.mpr hss

end

/-! ### What is read on one level -/

/-- Whether all that is read on a level counts at most the given number. -/
structure Level.Within (t : Tally) (n : Nat) (l : Level) : Prop where
  /-- Statements do. -/
  statement : l.statement.Yields fun s => s.reach t 1 ≤ n
  /-- Expressions do. -/
  expression : l.expression.Yields fun e => e.reach t 1 ≤ n
  /-- Operands do. -/
  operand : l.operand.Yields fun e => e.reach t 1 ≤ n

section

variable {α : Type} {P : α → Prop}

theorem commaList_yields {item : Takes α} (h : item.Yields P) (close : Kind) (what : String) :
    (commaList item close what).Yields fun as => ∀ a ∈ as, P a := by
  refine .iterate (I := fun before => ∀ a ∈ before, P a) (fun before hbefore => ?_) (by simp)
  refine h.andThen fun a ha => (Reads.Yields.any _).bind fun more _ => ?_
  have hitems : ∀ b ∈ a :: before, P b := List.forall_mem_cons.mpr ⟨ha, hbefore⟩
  cases more with
  | true => exact .pure hitems
  | false =>
    refine (Reads.Yields.any _).bind fun _ _ => .pure ?_
    exact fun b hb => hitems b (List.mem_reverse.mp hb)

theorem parenthesized_yields {item : Takes α} (h : item.Yields P) (what : String) :
    (parenthesized item what).Yields fun as => ∀ a ∈ as, P a := by
  refine .choose fun kind => ?_
  split
  · exact .after (.pure (by simp))
  · exact commaList_yields h _ _

end

section

variable {t : Tally} {n : Nat} {inner : Level}

theorem arrayItems_yields {item : Takes Expr} {P : Expr → Prop} (h : item.Yields P) :
    (arrayItems item).Yields fun es => ∀ e ∈ es, P e := by
  refine .iterate (I := fun before => ∀ a ∈ before, P a) (fun before hbefore => ?_) (by simp)
  refine .choose fun kind => ?_
  split
  · exact .after (.pure fun e he => hbefore e (List.mem_reverse.mp he))
  · refine h.andThen fun a ha => (Reads.Yields.any _).bind fun more _ => ?_
    have hitems : ∀ b ∈ a :: before, P b := List.forall_mem_cons.mpr ⟨ha, hbefore⟩
    cases more with
    | true => exact .pure hitems
    | false =>
      refine (Reads.Yields.any _).bind fun _ _ => .pure ?_
      exact fun b hb => hitems b (List.mem_reverse.mp hb)

theorem block_yields (h : inner.Within t n) :
    (block inner).Yields fun ss => ∀ s ∈ ss, s.reach t 1 ≤ n := by
  refine (Takes.Yields.any _).andThen fun _ _ => Takes.Yields.reads ?_
  refine .iterate (I := fun before => ∀ s ∈ before, s.reach t 1 ≤ n) (fun before hbefore => ?_)
    (by simp)
  refine .choose fun kind => ?_
  split
  · exact .after (.pure fun s hs => hbefore s (List.mem_reverse.mp hs))
  · exact .fail _
  · exact h.statement.andThen fun s hs => .pure (List.forall_mem_cons.mpr ⟨hs, hbefore⟩)

theorem branch_yields (h : inner.Within t n) :
    (branch inner).Yields fun ss => ∀ s ∈ ss, s.reach t 1 ≤ n := by
  refine .choose fun kind => ?_
  split
  · exact block_yields h
  · exact h.statement.andThen fun s hs => .pure (by simpa using hs)

/-! ### Functions -/

theorem reach_function_block {name : String} {parameters : List String} {ss : List Stmt}
    (h : ∀ s ∈ ss, s.reach t 1 ≤ n) :
    (Function.mk name parameters (.block ss)).reach t ≤ n := by
  rw [Function.reach, Body.reach]
  exact Stmt.reachAll_le_iff.mpr h

theorem arrowFunction_yields (h : inner.Within t n) :
    (arrowFunction inner).Yields fun e => e.reach t 1 ≤ 1 + n := by
  have hbody : ∀ (names : List String) (body : Body), body.reach t ≤ n →
      Reads.Yields (fun e : Expr => e.reach t 1 ≤ 1 + n)
        (pure (.function (.mk Function.anonymous names body))) :=
    fun names body hbody => .pure (Nat.add_le_add_left hbody 1)
  refine (Takes.Yields.any _).andThen fun names _ => (Reads.Yields.any _).bind fun _ _ => ?_
  refine (Reads.Yields.any _).bind fun kind _ => ?_
  dsimp only
  split
  · refine (block_yields h).reads.bind fun ss hss => ?_
    have hblock : Body.reach t (.block ss) ≤ n := Stmt.reachAll_le_iff.mpr hss
    exact Reads.Yields.bind (P := (·.reach t ≤ n)) (.pure hblock) (hbody names)
  · refine h.expression.reads.bind fun e he => ?_
    have hexpr : Body.reach t (.expr e) ≤ n := he
    exact Reads.Yields.bind (P := (·.reach t ≤ n)) (.pure hexpr) (hbody names)

theorem functionExpression_yields (h : inner.Within t n) :
    (functionExpression inner).Yields fun e => e.reach t 1 ≤ 1 + n := by
  have hrest : Reads.Yields (fun e : Expr => e.reach t 1 ≤ 1 + n) (do
      (expect .openParen "'(' after 'function'").reads
      let names ← parameters.reads
      let statements ← (block inner).reads
      pure (.function (.mk Function.anonymous names (.block statements)))) := by
    refine (Reads.Yields.any _).bind fun _ _ => (Reads.Yields.any _).bind fun names _ => ?_
    refine (block_yields h).reads.bind fun ss hss => .pure ?_
    exact Nat.add_le_add_left (reach_function_block hss) 1
  refine (Reads.Yields.any _).bind fun kind _ => ?_
  dsimp only
  split
  · exact (Reads.Yields.any _).bind fun _ _ => hrest
  · exact hrest

theorem functionStatement_yields (h : inner.Within t n) :
    (functionStatement inner).Yields fun f => f.reach t ≤ n := by
  refine (Reads.Yields.any _).bind fun name _ => (Reads.Yields.any _).bind fun _ _ => ?_
  refine (Reads.Yields.any _).bind fun names _ => ?_
  exact (block_yields h).reads.bind fun ss hss => .pure (reach_function_block hss)

/-! ### Expressions -/

theorem primary_yields (h : inner.Within t n) :
    (primary inner).Yields fun e => e.reach t 1 ≤ 1 + n := by
  have hone : 1 ≤ 1 + n := Nat.le_add_right 1 n
  have hparenthesis : (Takes.after do
      let e ← inner.expression.reads
      (expect .closeParen "')'").reads
      pure e).Yields fun e => e.reach t 1 ≤ 1 + n := by
    refine .after (h.expression.reads.bind fun e he => (Reads.Yields.any _).bind fun _ _ => ?_)
    exact .pure (Nat.le_trans he (Nat.le_add_left n 1))
  have harray : (Takes.after do
      pure (.array (← (arrayItems inner.expression).reads))).Yields fun e : Expr =>
        e.reach t 1 ≤ 1 + n := by
    refine .after ((arrayItems_yields h.expression).reads.bind fun es hes => .pure ?_)
    exact Nat.add_le_add_left (Expr.reachAll_le_iff.mpr hes) 1
  intro ts e rest hread
  rw [primary] at hread
  split at hread
  · exact arrowFunction_yields h ts e rest hread
  · refine Takes.Yields.choose (P := fun e => e.reach t 1 ≤ 1 + n) (fun kind => ?_) ts e rest hread
    split
    -- Literals and names are leaves.
    · exact .after (.pure hone)
    · exact .after (.pure hone)
    · exact .after (.pure hone)
    · exact .after (.pure hone)
    · exact .after (.pure hone)
    · exact .after (.pure hone)
    · exact hparenthesis
    · exact harray
    · exact .after (functionExpression_yields h)
    · exact .fail _

/-- Whether what has been read of a chain of calls and accesses counts no more than its turns allow. -/
def PostfixWithin (t : Tally) (n room : Nat) (state : Expr × Nat) : Prop :=
  state.1.reach t 1 ≤ 1 + n + t.link * state.2 ∧ state.2 ≤ room

theorem postfixPart_guarded {room : Nat} {state : Expr × Nat} {p : Reads (Expr × Nat)}
    {q : Takes (Expr × Nat)} (hp : state.2 < room → p.Yields (PostfixWithin t n room))
    (h : postfixPart.guarded room state p = some q) : q.Yields (PostfixWithin t n room) := by
  rw [postfixPart.guarded] at h
  split at h
  · obtain rfl := Option.some.inj h
    exact .fail _
  · obtain rfl := Option.some.inj h
    exact .after (hp (by omega))

theorem postfixPart_yields (h : inner.Within t n) {room : Nat} {state : Expr × Nat}
    (hstate : PostfixWithin t n room state) (kind : Kind) {q : Takes (Expr × Nat)}
    (hq : postfixPart inner room state kind = some q) : q.Yields (PostfixWithin t n room) := by
  obtain ⟨hreach, -⟩ := hstate
  have hturn : t.link * (state.2 + 1) = t.link * state.2 + t.link := Nat.mul_succ _ _
  rw [postfixPart.eq_def] at hq
  split at hq
  · refine postfixPart_guarded (fun hroom => ?_) hq
    refine (parenthesized_yields h.expression _).reads.bind fun es hes => .pure ⟨?_, hroom⟩
    have harguments := Expr.reachAll_le_iff.mpr hes
    simp only [Expr.reach]
    omega
  · refine postfixPart_guarded (fun hroom => ?_) hq
    refine h.expression.reads.bind fun e he => (Reads.Yields.any _).bind fun _ _ => ?_
    refine .pure ⟨?_, hroom⟩
    simp only [Expr.reach]
    omega
  · refine postfixPart_guarded (fun hroom => ?_) hq
    refine (Reads.Yields.any _).bind fun _ _ => .pure ⟨?_, hroom⟩
    simp only [Expr.reach]
    omega
  · cases hq

theorem operand_yields (h : inner.Within t n) (room : Nat) :
    (operand inner room).Yields fun e => e.reach t 1 ≤ 1 + n + t.link * room := by
  have hunary : ∀ op, (Takes.after do pure (.unary op (← inner.operand.reads))).Yields
      fun e : Expr => e.reach t 1 ≤ 1 + n + t.link * room := by
    intro op
    refine .after (h.operand.reads.bind fun e he => .pure ?_)
    simp only [Expr.reach]
    omega
  refine .choose fun kind => ?_
  split
  · exact hunary .not
  · exact hunary .neg
  · refine (primary_yields h).andThen fun e he => ?_
    refine (Reads.Yields.repeat (I := PostfixWithin t n room)
      (fun state kind q hstate hq => postfixPart_yields h hstate kind hq)
      ⟨Nat.le_trans he (Nat.le_add_right ..), Nat.zero_le room⟩).bind ?_
    rintro ⟨e, turns⟩ ⟨hreach, hturns⟩
    have hlink : t.link * turns ≤ t.link * room := Nat.mul_le_mul_left _ hturns
    exact .pure (Nat.le_trans hreach (Nat.add_le_add_left hlink _))

/-- An operator counts one more than the operand that counts more. -/
theorem reach_of_operator? {kind : Kind} {build : Expr → Expr → Expr} {precedence : Fin 6}
    (h : operator? kind = some (build, precedence)) (left right : Expr) (own : Nat) :
    (build left right).reach t own = own + max (left.reach t t.link) (right.reach t t.link) := by
  rw [operator?.eq_def] at h
  split at h <;> cases h <;> rfl

/-- Whether what has been read of a chain of operators counts no more than its turns and the higher
levels of precedence allow. -/
def OperationWithin (t : Tally) (n room lowest : Nat) (state : Expr × Nat) : Prop :=
  state.1.reach t t.link ≤ n + t.link * ((5 - lowest) * room + state.2) ∧ state.2 ≤ room ∧
    (lowest ≤ 5 ∨ state.2 = 0)

theorem OperationWithin.reach_le {room lowest : Nat} {state : Expr × Nat}
    (h : OperationWithin t n room lowest state) :
    state.1.reach t t.link ≤ n + t.link * ((6 - lowest) * room) := by
  obtain ⟨hreach, hroom, hlowest⟩ := h
  have hturns : (5 - lowest) * room + state.2 ≤ (6 - lowest) * room := by
    rcases hlowest with hlowest | hnone
    · have hlevels : 6 - lowest = 5 - lowest + 1 := by omega
      rw [hlevels, Nat.succ_mul]
      omega
    · rw [hnone]
      exact Nat.mul_le_mul_right room (by omega)
  exact Nat.le_trans hreach (Nat.add_le_add_left (Nat.mul_le_mul_left _ hturns) n)

theorem operation_yields (h : inner.Within t n) (hlink : t.link ≤ 1) (room lowest : Nat) :
    (operation inner room lowest).Yields fun e =>
      e.reach t t.link ≤ n + t.link * ((6 - lowest) * room) := by
  -- By induction on the levels of precedence that are left.
  obtain ⟨levels, hlevels⟩ : ∃ k, 6 - lowest = k := ⟨_, rfl⟩
  induction levels using Nat.strongRecOn generalizing lowest with
  | _ levels ih =>
  rw [operation]
  refine h.operand.andThen fun first hfirst => ?_
  have hstart : OperationWithin t n room lowest (first, 0) := by
    refine ⟨?_, Nat.zero_le room, .inr rfl⟩
    exact Nat.le_trans (first.reach_le_of_le_one hlink) (Nat.le_trans hfirst (Nat.le_add_right ..))
  refine (Reads.Yields.repeat (I := OperationWithin t n room lowest) ?_ hstart).bind
    fun state hstate => .pure hstate.reach_le
  rintro ⟨left, turns⟩ kind q ⟨hleft, -, -⟩ hq
  dsimp only at hq
  split at hq
  · cases hq
  · rename_i build precedence hoperator
    have hprecedence := precedence.isLt
    split at hq
    · cases hq
    · rename_i hlowest
      split at hq
      · obtain rfl := Option.some.inj hq
        exact .fail _
      · rename_i hroom
        obtain rfl := Option.some.inj hq
        have hright := ih (6 - (precedence.val + 1)) (by omega) (precedence.val + 1) rfl
        refine .after (hright.reads.bind fun right hright => .pure ⟨?_, ?_, ?_⟩)
        · have hlevels : (6 - (precedence.val + 1)) * room ≤ (5 - lowest) * room + turns :=
            Nat.le_trans (Nat.mul_le_mul_right room (by omega)) (Nat.le_add_right ..)
          have hhigher := Nat.mul_le_mul_left t.link hlevels
          have hturn : t.link * ((5 - lowest) * room + (turns + 1)) =
              t.link * ((5 - lowest) * room + turns) + t.link := Nat.mul_succ _ _
          rw [reach_of_operator? hoperator]
          dsimp only at hleft ⊢
          omega
        · dsimp only
          omega
        · dsimp only
          omega

theorem conditional_yields (h : inner.Within t n) (hlink : t.link ≤ 1) (room : Nat) :
    (conditional inner room).Yields fun e => e.reach t 1 ≤ 1 + n + t.link * (6 * room) := by
  refine (operation_yields h hlink room 0).andThen fun condition hcondition => ?_
  have hcondition : condition.reach t t.link ≤ n + t.link * (6 * room) := hcondition
  refine (Reads.Yields.any _).bind fun more _ => ?_
  cases more with
  | true =>
    refine h.expression.reads.bind fun yes hyes => (Reads.Yields.any _).bind fun _ _ => ?_
    refine h.expression.reads.bind fun no hno => .pure ?_
    simp only [Expr.reach]
    omega
  | false =>
    have hown := condition.reach_one_le (t := t) t.link
    exact .pure (by omega)

/-! ### Statements -/

theorem reach_named (name : String) (e : Expr) (own : Nat) :
    (named name e).reach t own = e.reach t own := by
  cases e with
  | function f =>
    cases f with
    | mk old names body => simp only [named, Expr.reach, Function.reach]
  | _ => rfl

theorem binding_yields (h : inner.Within t n) (mutable : Bool) :
    (binding inner mutable).Yields fun s => s.reach t 1 ≤ 1 + n := by
  refine (Reads.Yields.any _).bind fun name _ => ?_
  refine Reads.Yields.bind (P := (Expr.reachOption t · ≤ n)) ?_ fun value hvalue =>
    (Reads.Yields.any _).bind fun _ _ => .pure (Nat.add_le_add_left hvalue 1)
  refine (Reads.Yields.any _).bind fun assigned _ => ?_
  cases assigned with
  | true =>
    refine h.expression.reads.bind fun e he => .pure ?_
    rw [Expr.reachOption, reach_named]
    exact he
  | false =>
    cases mutable with
    | true => exact .pure (Nat.zero_le n)
    | false => exact .fail _

theorem returnValue_yields (h : inner.Within t n) :
    (returnValue inner).Yields fun value => Expr.reachOption t value ≤ n := by
  refine (Reads.Yields.any _).bind fun kind _ => ?_
  split
  · exact .pure (Nat.zero_le n)
  · exact .pure (Nat.zero_le n)
  · exact h.expression.reads.bind fun e he => .pure he

/-- Whether the parts of a case of an `if` count at most the given number. -/
def CaseWithin (t : Tally) (n : Nat) (case : Expr × List Stmt) : Prop :=
  case.1.reach t 1 ≤ n ∧ ∀ s ∈ case.2, s.reach t 1 ≤ n

theorem branches_cons (c : Expr × List Stmt) (cases : List (Expr × List Stmt))
    (last : Expr × List Stmt) (no : Option (List Stmt)) : branches (c :: cases) last no =
      .branch c.1 c.2 (some [branches cases last no]) := rfl

/-- If the cases of an `if` do not count, then it counts one, however many cases there are. -/
theorem reach_branches (hcase : t.case = 0) {cases : List (Expr × List Stmt)}
    {last : Expr × List Stmt} {no : Option (List Stmt)} (hcases : ∀ c ∈ cases, CaseWithin t n c)
    (hlast : CaseWithin t n last) (hno : ∀ ss, no = some ss → ∀ s ∈ ss, s.reach t 1 ≤ n) (own : Nat) :
    (branches cases last no).reach t own ≤ own + n := by
  induction cases generalizing own with
  | nil =>
    have hyes := Stmt.reachAll_le_iff.mpr hlast.2
    have hcondition := hlast.1
    have helse : Stmt.reachElse t no ≤ n := by
      cases no with
      | none => exact Nat.zero_le n
      | some ss => exact Stmt.reachElse_le (by omega) (hno ss rfl)
    simp only [branches, List.foldr_nil, Stmt.reach]
    omega
  | cons c cases ih =>
    obtain ⟨⟨hcondition, hyes⟩, hrest⟩ := List.forall_mem_cons.mp hcases
    have hyes := Stmt.reachAll_le_iff.mpr hyes
    -- The rest counts as one more case.
    have helse : (branches cases last no).reach t t.case ≤ n := by
      have hih := ih hrest t.case
      omega
    rw [branches_cons]
    simp only [Stmt.reach, Stmt.reachElse]
    omega

theorem ifElse_yields (hcase : t.case = 0) (h : inner.Within t n) :
    (ifElse inner).Yields fun s => s.reach t 1 ≤ 1 + n := by
  refine .iterate (I := fun before => ∀ c ∈ before, CaseWithin t n c) (fun before hbefore => ?_)
    (by simp)
  have hcases : ∀ c ∈ before.reverse, CaseWithin t n c :=
    fun c hc => hbefore c (List.mem_reverse.mp hc)
  refine (Takes.Yields.any _).andThen fun _ _ => ?_
  refine h.expression.reads.bind fun condition hcondition => (Reads.Yields.any _).bind fun _ _ => ?_
  refine (branch_yields h).reads.bind fun yes hyes => (Reads.Yields.any _).bind fun more _ => ?_
  have hlast : CaseWithin t n (condition, yes) := ⟨hcondition, hyes⟩
  cases more with
  | true =>
    refine (Reads.Yields.any _).bind fun again _ => ?_
    cases again with
    | true => exact .pure (List.forall_mem_cons.mpr ⟨hlast, hbefore⟩)
    | false =>
      refine (branch_yields h).reads.bind fun no hno => .pure ?_
      exact reach_branches hcase hcases hlast (by rintro _ ⟨⟩; exact hno) 1
  | false => exact .pure (reach_branches hcase hcases hlast (by rintro _ ⟨⟩) 1)

theorem loopStatement_yields (h : inner.Within t n) :
    (loopStatement inner).Yields fun s => s.reach t 1 ≤ 1 + n := by
  refine (Reads.Yields.any _).bind fun _ _ => ?_
  have hrest : Reads.Yields (fun s : Stmt => s.reach t 1 ≤ 1 + n) (do
      let name ← (expectName "loop variable").reads
      (expect .of "'of' (only for-of loops are supported)").reads
      let elements ← inner.expression.reads
      (expect .closeParen "')' after for-of header").reads
      let body ← (branch inner).reads
      pure (.each name elements body)) := by
    refine (Reads.Yields.any _).bind fun name _ => (Reads.Yields.any _).bind fun _ _ => ?_
    refine h.expression.reads.bind fun e he => (Reads.Yields.any _).bind fun _ _ => ?_
    refine (branch_yields h).reads.bind fun body hbody => .pure ?_
    have hbody := Stmt.reachAll_le_iff.mpr hbody
    simp only [Stmt.reach]
    omega
  refine (Reads.Yields.any _).bind fun const _ => ?_
  dsimp only
  cases const with
  | true => exact hrest
  | false =>
    refine (Reads.Yields.any _).bind fun mutable _ => ?_
    cases mutable with
    | true => exact hrest
    | false => exact (Reads.Yields.any _).bind fun _ _ => hrest

theorem expressionStatement_yields (h : inner.Within t n) :
    (expressionStatement inner).Yields fun s => s.reach t 1 ≤ 1 + n :=
  h.expression.andThen fun _ he =>
    (Reads.Yields.any _).bind fun _ _ => .pure (Nat.add_le_add_left he 1)

/-- An assignment counts what the operator counts that it may write in addition. -/
theorem assignment_yields (h : inner.Within t n) (name : String) {change : Expr → Expr} {m : Nat}
    (hchange : ∀ e, e.reach t 1 ≤ n → (change e).reach t t.link ≤ m) :
    (assignment inner name change).Yields fun s => s.reach t 1 ≤ 1 + m := by
  refine .after ((Reads.Yields.any _).bind fun _ _ => h.expression.reads.bind fun e he => ?_)
  exact (Reads.Yields.any _).bind fun _ _ => .pure (Nat.add_le_add_left (hchange e he) 1)

theorem statement_yields (hlink : t.link ≤ 1) (hcase : t.case = 0) (h : inner.Within t n) :
    (statement inner).Yields fun s => s.reach t 1 ≤ n + 1 + t.link := by
  have hmore : ∀ s : Stmt, s.reach t 1 ≤ 1 + n → s.reach t 1 ≤ n + 1 + t.link := by
    intro s hs
    omega
  have hplain : ∀ e : Expr, e.reach t 1 ≤ n → (id e).reach t t.link ≤ n :=
    fun e he => Nat.le_trans (e.reach_le_of_le_one hlink) he
  have hsum : ∀ name e, e.reach t 1 ≤ n →
      (Expr.binary .add (.name name) e).reach t t.link ≤ n + t.link := by
    intro name e he
    have hone := e.one_le_reach (t := t)
    have hright := e.reach_le_of_le_one (t := t) hlink
    simp only [Expr.reach]
    omega
  refine .chooseByTwo fun first second => ?_
  split
  · exact (assignment_yields h _ hplain).mono hmore
  · exact (assignment_yields h _ (hsum _)).mono fun s hs => by omega
  · exact .after ((functionStatement_yields h).bind fun f hf => .pure (hmore _ (Nat.add_le_add_left hf 1)))
  · exact .after ((binding_yields h _).mono hmore)
  · exact .after ((binding_yields h _).mono hmore)
  · refine .after ((returnValue_yields h).bind fun value hvalue => (Reads.Yields.any _).bind fun _ _ => ?_)
    exact .pure (hmore _ (Nat.add_le_add_left hvalue 1))
  · exact .after ((ifElse_yields hcase h).reads.mono hmore)
  · exact .after ((loopStatement_yields h).mono hmore)
  · refine .after (h.expression.reads.bind fun e he => (Reads.Yields.any _).bind fun _ _ => ?_)
    exact .pure (hmore _ (Nat.add_le_add_left he 1))
  · refine (block_yields h).andThen fun ss hss => .pure (hmore _ ?_)
    exact Nat.add_le_add_left (Stmt.reachAll_le_iff.mpr hss) 1
  · exact (expressionStatement_yields h).mono hmore

/-! ### All levels -/

/-- One more level counts one more, and with the links of chains six more for each turn that an
operator may take, one for each call or access, and one for an assignment with an operator. -/
theorem Level.Within.succ {room : Nat} (hlink : t.link ≤ 1) (hcase : t.case = 0)
    (h : (level room).Within t n) :
    (level (room + 1)).Within t (n + 1 + t.link * (6 * room + 1)) := by
  have hroom : t.link * (6 * room + 1) = t.link * (6 * room) + t.link := Nat.mul_succ _ _
  have hchain : t.link * room ≤ t.link * (6 * room) := Nat.mul_le_mul_left _ (by omega)
  refine ⟨?_, ?_, ?_⟩
  · exact (statement_yields hlink hcase h).mono fun s hs => by omega
  · exact (conditional_yields h hlink room).mono fun e he => by omega
  · exact (operand_yields h room).mono fun e he => by omega

/-- What is read on a level counts one for each level inside, and the links of chains with the square
of their number. -/
theorem level_within (hlink : t.link ≤ 1) (hcase : t.case = 0) (room : Nat) :
    (level room).Within t (room + t.link * (3 * room ^ 2)) := by
  induction room with
  | zero => exact ⟨.fail _, .fail _, .fail _⟩
  | succ room ih =>
    have hnext := ih.succ hlink hcase
    have hsquare : t.link * (3 * (room + 1) ^ 2) =
        t.link * (3 * room ^ 2) + t.link * (6 * room + 1) + t.link * 2 := by
      ring
    have hbound : room + t.link * (3 * room ^ 2) + 1 + t.link * (6 * room + 1) ≤
        room + 1 + t.link * (3 * (room + 1) ^ 2) := by
      omega
    exact ⟨hnext.statement.mono fun s hs => Nat.le_trans hs hbound,
      hnext.expression.mono fun e he => Nat.le_trans he hbound,
      hnext.operand.mono fun e he => Nat.le_trans he hbound⟩

end

theorem statements_yields {t : Tally} {n : Nat} (h : (level maxLevel).Within t n) :
    statements.Yields fun program => ∀ s ∈ program, s.reach t 1 ≤ n := by
  refine Reads.Yields.bind (P := fun before => ∀ s ∈ before, s.reach t 1 ≤ n) ?_ fun before hbefore =>
    .pure fun s hs => hbefore s (List.mem_reverse.mp hs)
  refine .repeat (fun before kind p hbefore hp => ?_) (by simp)
  split at hp
  · cases hp
  · obtain rfl := Option.some.inj hp
    exact h.statement.andThen fun s hs => .pure (List.forall_mem_cons.mpr ⟨hs, hbefore⟩)

/-- What the limit on nesting bounds in every script that is accepted: without the links of chains and
the further cases of an `if`, as many statements and expressions stand on a path as it says; with the
links, no more than with three times its square in addition. -/
theorem ofTokens_reach {ts : List Token} {program : Program}
    (h : Program.ofTokens ts = .ok program) : ∀ s ∈ program,
      s.reach .nested 1 ≤ maxLevel ∧ s.reach .chained 1 ≤ maxLevel + 3 * maxLevel ^ 2 := by
  have hyields : ∀ link ≤ 1, ∀ s ∈ program,
      s.reach ⟨link, 0⟩ 1 ≤ maxLevel + link * (3 * maxLevel ^ 2) := by
    intro link hlink
    have hlevel := level_within (t := ⟨link, 0⟩) hlink rfl maxLevel
    rw [Program.ofTokens] at h
    cases hread : statements ts with
    | error m =>
      rw [hread] at h
      cases h
    | ok r =>
      rw [hread] at h
      obtain rfl := Except.ok.inj h
      exact statements_yields hlevel ts r.1 r.2 hread
  intro s hs
  have hzero := hyields 0 (Nat.zero_le 1) s hs
  have hone := hyields 1 (Nat.le_refl 1) s hs
  rw [Nat.zero_mul] at hzero
  rw [Nat.one_mul] at hone
  exact ⟨hzero, hone⟩

/-- A sum that is assigned with a sum: of the four nodes on a path the limit bounds two. -/
theorem ofTokens_reach_sum : ∃ s, Program.ofTokens
    ([Kind.name "x", .plusAssign, .int 1, .plus, .int 2, .eof].map (⟨·, 1⟩)) = .ok [s] ∧
      s.reach .nested 1 = 2 ∧ s.reach .chained 1 = 4 ∧
        s.reach .nested 1 ≤ maxLevel ∧ s.reach .chained 1 ≤ maxLevel + 3 * maxLevel ^ 2 := by
  have hread : Program.ofTokens
      ([Kind.name "x", .plusAssign, .int 1, .plus, .int 2, .eof].map (⟨·, 1⟩)) =
        .ok [.assign "x" (.binary .add (.name "x")
          (.binary .add (.literal (.int 1)) (.literal (.int 2))))] := by
    cbv
  exact ⟨_, hread, rfl, rfl, ofTokens_reach hread _ List.mem_cons_self⟩

/-! ### Further cases -/

/-- The tokens of a condition and of a block without statements, before others. -/
def emptyCase (rest : List Token) : List Token :=
  [Kind.openParen, .null, .closeParen, .openBrace, .closeBrace].map (⟨·, 1⟩) ++ rest

/-- The tokens of a number of further cases, and of the end. -/
def furtherCases : Nat → List Token
  | 0 => [⟨.eof, 1⟩]
  | n + 1 => ⟨.else, 1⟩ :: ⟨.if, 1⟩ :: emptyCase (furtherCases n)

/-- The statement with a number of further cases. -/
def manyCases (n : Nat) : Stmt :=
  branches (List.replicate n (.literal .null, [])) (.literal .null, []) none

theorem length_lt_emptyCase (rest : List Token) : rest.length < (emptyCase rest).length := by
  rw [emptyCase, List.length_append]
  exact Nat.lt_add_of_pos_left (by decide)

/-- A loop that takes a case in each turn takes all further cases. -/
theorem iterate_furtherCases
    {step : List (Expr × List Stmt) → Takes (List (Expr × List Stmt) ⊕ Stmt)}
    (hmore : ∀ before rest, ∃ h, step before (emptyCase (⟨.else, 1⟩ :: ⟨.if, 1⟩ :: rest)) =
      .ok (.inl ((.literal .null, []) :: before), ⟨rest, h⟩))
    (hlast : ∀ before, ∃ h, step before (emptyCase [⟨.eof, 1⟩]) =
      .ok (.inr (branches before.reverse (.literal .null, []) none), ⟨[⟨.eof, 1⟩], h⟩)) (n : Nat) :
    ∀ before, ∃ h, Takes.iterate step before (emptyCase (furtherCases n)) =
      .ok (branches (before.reverse ++ List.replicate n (.literal .null, [])) (.literal .null, [])
        none, ⟨[⟨.eof, 1⟩], h⟩) := by
  induction n with
  | zero =>
    intro before
    obtain ⟨h, hstep⟩ := hlast before
    rw [List.replicate_zero, List.append_nil]
    exact ⟨h, Takes.iterate_of_inr hstep⟩
  | succ n ih =>
    intro before
    obtain ⟨h, hstep⟩ := hmore before (emptyCase (furtherCases n))
    obtain ⟨h', hrest⟩ := ih ((.literal .null, []) :: before)
    rw [List.reverse_cons, List.append_assoc] at hrest
    exact ⟨Nat.lt_trans h' h, Takes.iterate_of_inl hstep hrest⟩

theorem ifElse_furtherCases (n : Nat) : ∃ h, ifElse (level 127) (emptyCase (furtherCases n)) =
    .ok (manyCases n, ⟨[⟨.eof, 1⟩], h⟩) := by
  refine iterate_furtherCases (fun before rest => ⟨?_, ?_⟩) (fun before => ⟨?_, ?_⟩) n []
  · have hlength := length_lt_emptyCase (⟨.else, 1⟩ :: ⟨.if, 1⟩ :: rest)
    rw [List.length_cons, List.length_cons] at hlength
    omega
  · cbv
  · exact length_lt_emptyCase _
  · cbv

/-- However many cases an `if` has, it is accepted. -/
theorem ofTokens_furtherCases (n : Nat) :
    Program.ofTokens (⟨.if, 1⟩ :: emptyCase (furtherCases n)) = .ok [manyCases n] := by
  obtain ⟨h, hread⟩ := ifElse_furtherCases n
  have hif : (level maxLevel).statement (⟨.if, 1⟩ :: emptyCase (furtherCases n)) =
      Takes.after (ifElse (level 127)).reads (⟨.if, 1⟩ :: emptyCase (furtherCases n)) := rfl
  have hstatement : ((level maxLevel).statement.andThen fun s => pure [s])
      (⟨.if, 1⟩ :: emptyCase (furtherCases n)) =
        .ok ([manyCases n], ⟨[⟨.eof, 1⟩], Nat.lt_succ_of_lt h⟩) := by
    simp only [Takes.andThen, hif, Takes.after, Takes.token, Takes.reads, hread]
    rfl
  have hend : Reads.repeat (fun before kind => if kind = .eof then none
      else some ((level maxLevel).statement.andThen fun s => pure (s :: before))) [manyCases n]
        [⟨.eof, 1⟩] = .ok ([manyCases n], ⟨[⟨.eof, 1⟩], Nat.le_refl _⟩) := Reads.repeat_of_none rfl
  rw [Program.ofTokens, statements]
  change Except.map _ (Reads.bind _ _ _) = _
  rw [Reads.bind, Reads.repeat_of_some rfl hstatement hend]
  rfl

theorem reach_manyCases (n : Nat) : (manyCases n).reach .every 1 = n + 2 := by
  induction n with
  | zero => rfl
  | succ n ih =>
    rw [manyCases] at ih
    rw [manyCases, List.replicate_succ, branches_cons]
    simp only [Stmt.reach, Expr.reach, Stmt.reachElse, Stmt.reachAll, Tally.every] at ih ⊢
    omega

/-- The limit on nesting does not bound the tree: a script is accepted with more statements and
expressions on a path. -/
theorem ofTokens_beyond_maxLevel : ∃ program,
    Program.ofTokens (⟨.if, 1⟩ :: emptyCase (furtherCases maxLevel)) = .ok program ∧
      ∃ s ∈ program, maxLevel < s.reach .every 1 := by
  refine ⟨_, ofTokens_furtherCases maxLevel, _, List.mem_cons_self, ?_⟩
  rw [reach_manyCases]
  decide

end Polyglot.Script
