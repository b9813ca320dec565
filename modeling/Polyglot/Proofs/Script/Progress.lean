import Mathlib
import Polyglot.Proofs.Codec.Traversal
import Polyglot.Proofs.Script.Confinement
import Polyglot.Proofs.Script.Spelling
import Polyglot.Script.Tree.OfTokens

/-!
# Reading a script ends where its tokens do

Tokens that end with the only one that says so are read as a script without going past the end: either
all tokens before it are taken and the end is left, or the mistake is at one of them
(`ofTokens_ends`).  On the way each statement, expression, operand, block and branch that is read takes
at least one token and leaves the end, however much may be nested.  So nothing is read for ever: the
tokens before the end are used up.

The readers of a level keep within the tokens if those of the level inside it do, one lemma for each
reader; `level_confined` goes through the levels.  The tokens of a text always end so
(`isEnd_of_tokenize`).
-/

namespace Polyglot.Script

/-! ### Lists -/

section

variable {α : Type} {item : Takes α}

theorem commaList_confined (h : item.Confined) {close : Kind} (hclose : close ≠ .eof)
    (what : String) : (commaList item close what).Confined := by
  refine Takes.confined_iterate (fun before => h.andThen fun a => ?_) []
  refine (confined_accept (by decide)).bind fun more => ?_
  cases more with
  | true => exact Reads.confined_pure _
  | false => exact (confined_expect hclose what).reads.bind fun _ => Reads.confined_pure _

theorem parenthesized_confined (h : item.Confined) (what : String) :
    (parenthesized item what).Confined := by
  refine Takes.confined_choose fun kind => ?_
  split
  · exact (Reads.confined_pure []).after (by decide)
  · exact (commaList_confined h (by decide) what).weaken

end

theorem parameters_confined : parameters.Confined :=
  parenthesized_confined (confined_expectName _) _

theorem arrayItems_confined {item : Takes Expr} (h : item.Confined) :
    (arrayItems item).Confined := by
  refine Takes.confined_iterate (fun before => Takes.confined_choose fun kind => ?_) []
  split
  · exact (Reads.confined_pure _).after (by decide)
  · refine (h.andThen fun a => ?_).weaken
    refine (confined_accept (by decide)).bind fun more => ?_
    cases more with
    | true => exact Reads.confined_pure _
    | false => exact (confined_expect (by decide) _).reads.bind fun _ => Reads.confined_pure _

/-! ### What may be nested -/

/-- Whether the readers of a level take at least one token or fail, and keep within the tokens. -/
structure Level.Confined (l : Level) : Prop where
  /-- The reader of statements does. -/
  statement : l.statement.Confined
  /-- The reader of expressions does. -/
  expression : l.expression.Confined
  /-- The reader of operands does. -/
  operand : l.operand.Confined

section

variable {inner : Level}

theorem block_confined (h : inner.Confined) : (block inner).Confined := by
  refine (confined_expect (by decide) _).andThen fun _ => Takes.ConfinedFrom.reads ?_
  refine Takes.confined_iterate (fun before => Takes.confined_choose fun kind => ?_) []
  split
  · exact (Reads.confined_pure _).after (by decide)
  · exact (Takes.confined_fail fun _ => rfl).weaken
  · exact (h.statement.andThen fun s => Reads.confined_pure _).weaken

theorem branch_confined (h : inner.Confined) : (branch inner).Confined := by
  refine Takes.confined_choose fun kind => ?_
  split
  · exact (block_confined h).weaken
  · exact (h.statement.andThen fun s => Reads.confined_pure [s]).weaken

/-! ### Functions -/

/-- Looking for an arrow stops at the end, which is neither a name nor a comma. -/
theorem parametersThenArrow_append {before : List Token} {last : Token} (hend : IsEnd before last)
    (more : List Token) : parametersThenArrow (before ++ last :: more) =
      parametersThenArrow (before ++ [last]) := by
  induction before with
  | nil =>
    rw [List.nil_append, List.nil_append, parametersThenArrow, parametersThenArrow, hend.last]
  | cons t rest ih =>
    have hrest := ih hend.tail
    have hhead : (rest ++ last :: more).head? = (rest ++ [last]).head? := by
      cases rest <;> rfl
    rw [List.cons_append, List.cons_append, parametersThenArrow, parametersThenArrow, hrest, hhead]

theorem startsArrow_append {before : List Token} {last : Token} (hend : IsEnd before last)
    (more : List Token) : startsArrow (before ++ last :: more) = startsArrow (before ++ [last]) := by
  cases before with
  | nil => rw [List.nil_append, List.nil_append, startsArrow, startsArrow, hend.last]
  | cons t rest =>
    have hrest := parametersThenArrow_append hend.tail more
    have hhead : (rest ++ last :: more).head? = (rest ++ [last]).head? := by
      cases rest <;> rfl
    rw [List.cons_append, List.cons_append, startsArrow, startsArrow, hrest, hhead]

theorem arrowFunction_confined (h : inner.Confined) : (arrowFunction inner).Confined := by
  refine Takes.ConfinedFrom.andThen (Takes.confined_choose fun kind => ?_) fun names => ?_
  · split
    · exact parameters_confined.reads.after (by decide)
    · exact ((confined_expectName _).andThen fun name => Reads.confined_pure [name]).weaken
  refine (confined_expect (by decide) _).reads.bind fun _ => ?_
  refine Reads.confined_peek_bind fun kind => Reads.ConfinedFrom.weaken ?_
  dsimp only
  split
  · exact (block_confined h).reads.bind fun ss => (Reads.confined_pure _).bind fun body =>
      Reads.confined_pure _
  · exact h.expression.reads.bind fun e => (Reads.confined_pure _).bind fun body =>
      Reads.confined_pure _

theorem functionExpression_confined (h : inner.Confined) :
    (functionExpression inner).Confined := by
  have hrest : Reads.Confined (do
      (expect .openParen "'(' after 'function'").reads
      let names ← parameters.reads
      let statements ← (block inner).reads
      pure (Expr.function (.mk Function.anonymous names (.block statements)))) := by
    refine (confined_expect (by decide) _).reads.bind fun _ => ?_
    refine parameters_confined.reads.bind fun names => ?_
    exact (block_confined h).reads.bind fun ss => Reads.confined_pure _
  refine Reads.confined_peek_bind fun kind => ?_
  dsimp only
  split
  · exact (Takes.confined_token (by nofun)).reads.bind fun _ => hrest
  · exact hrest.weaken

theorem functionStatement_confined (h : inner.Confined) : (functionStatement inner).Confined := by
  refine (confined_expectName _).reads.bind fun name => ?_
  refine (confined_expect (by decide) _).reads.bind fun _ => ?_
  refine parameters_confined.reads.bind fun names => ?_
  exact (block_confined h).reads.bind fun ss => Reads.confined_pure _

/-! ### Expressions -/

theorem primary_confined (h : inner.Confined) : (primary inner).Confined := by
  have hleaf : ∀ {kind : Kind} (e : Expr), kind ≠ .eof →
      (Takes.after (pure e)).ConfinedFrom [kind] :=
    fun e hkind => (Reads.confined_pure e).after hkind
  refine Takes.confined_ite (fun _ _ more hend => startsArrow_append hend more)
    (arrowFunction_confined h) (Takes.confined_choose fun kind => ?_)
  split
  · exact hleaf _ nofun
  · exact hleaf _ nofun
  · exact hleaf _ nofun
  · exact hleaf _ nofun
  · exact hleaf _ nofun
  · exact hleaf _ nofun
  · refine Reads.ConfinedFrom.after (h.expression.reads.bind fun e => ?_) nofun
    exact (confined_expect (by decide) _).reads.bind fun _ => Reads.confined_pure e
  · exact Reads.ConfinedFrom.after
      ((arrayItems_confined h.expression).reads.bind fun es => Reads.confined_pure _) nofun
  · exact (functionExpression_confined h).after nofun
  · exact (Takes.confined_fail fun _ => rfl).weaken

theorem guarded_confined {room : Nat} {state : Expr × Nat} {p : Reads (Expr × Nat)} {kind : Kind}
    (hp : p.Confined) (hkind : kind ≠ .eof) {q : Takes (Expr × Nat)}
    (hq : postfixPart.guarded room state p = some q) : q.ConfinedFrom [kind] := by
  rw [postfixPart.guarded] at hq
  split at hq
  · obtain rfl := Option.some.inj hq
    exact (Takes.confined_fail fun _ => rfl).weaken
  · obtain rfl := Option.some.inj hq
    exact hp.after hkind

theorem postfixPart_confined (h : inner.Confined) {room : Nat} {state : Expr × Nat} {kind : Kind}
    {q : Takes (Expr × Nat)} (hq : postfixPart inner room state kind = some q) :
    q.ConfinedFrom [kind] := by
  rw [postfixPart.eq_def] at hq
  split at hq
  · refine guarded_confined ?_ (by nofun) hq
    exact (parenthesized_confined h.expression _).reads.bind fun es => Reads.confined_pure _
  · refine guarded_confined (h.expression.reads.bind fun e => ?_) (by nofun) hq
    exact (confined_expect (by decide) _).reads.bind fun _ => Reads.confined_pure _
  · refine guarded_confined ?_ (by nofun) hq
    exact (confined_expectName _).reads.bind fun name => Reads.confined_pure _
  · cases hq

theorem operand_confined (h : inner.Confined) (room : Nat) : (operand inner room).Confined := by
  have hunary : ∀ {kind : Kind} (op : UnaryOp), kind ≠ .eof →
      (Takes.after do pure (Expr.unary op (← inner.operand.reads))).ConfinedFrom [kind] :=
    fun op hkind => Reads.ConfinedFrom.after
      (h.operand.reads.bind fun e => Reads.confined_pure (Expr.unary op e)) hkind
  refine Takes.confined_choose fun kind => ?_
  split
  · exact hunary .not nofun
  · exact hunary .neg nofun
  · refine ((primary_confined h).andThen fun e => ?_).weaken
    refine Reads.ConfinedFrom.bind ?_ fun state => Reads.confined_pure state.1
    exact Reads.confined_repeat (fun _ _ _ hq => postfixPart_confined h hq) (e, 0)

/-- The end is no operator. -/
theorem ne_eof_of_operator? {kind : Kind} {r : (Expr → Expr → Expr) × Fin 6}
    (h : operator? kind = some r) : kind ≠ .eof := by
  rintro rfl
  cases h

theorem operation_confined (h : inner.Confined) (room lowest : Nat) :
    (operation inner room lowest).Confined := by
  -- By induction on the levels of precedence that are left.
  induction hlevels : 6 - lowest using Nat.strongRecOn generalizing lowest with
  | ind levels ih =>
    rw [operation]
    refine h.operand.andThen fun first => ?_
    refine Reads.ConfinedFrom.bind ?_ fun state => Reads.confined_pure state.1
    refine Reads.confined_repeat (fun state kind q hq => ?_) (first, 0)
    dsimp only at hq
    split at hq
    · cases hq
    · rename_i build precedence hoperator
      have hprecedence := precedence.isLt
      split at hq
      · cases hq
      · split at hq
        · obtain rfl := Option.some.inj hq
          exact (Takes.confined_fail fun _ => rfl).weaken
        · obtain rfl := Option.some.inj hq
          have hright := ih (6 - (precedence.val + 1)) (by omega) (precedence.val + 1) rfl
          exact Reads.ConfinedFrom.after (hright.reads.bind fun right => Reads.confined_pure _)
            (ne_eof_of_operator? hoperator)

theorem conditional_confined (h : inner.Confined) (room : Nat) :
    (conditional inner room).Confined := by
  refine (operation_confined h room 0).andThen fun condition => ?_
  refine (confined_accept (by decide)).bind fun more => ?_
  cases more with
  | true =>
    refine h.expression.reads.bind fun yes => ?_
    refine (confined_expect (by decide) _).reads.bind fun _ => ?_
    exact h.expression.reads.bind fun no => Reads.confined_pure _
  | false => exact Reads.confined_pure condition

/-! ### Statements -/

theorem statementEnd_confined : statementEnd.Confined :=
  (confined_accept (by decide)).bind fun _ => Reads.confined_pure ()

theorem binding_confined (h : inner.Confined) (mutable : Bool) :
    (binding inner mutable).Confined := by
  refine (confined_expectName _).reads.bind fun name => ?_
  refine Reads.ConfinedFrom.bind ?_ fun value =>
    statementEnd_confined.bind fun _ => Reads.confined_pure _
  refine (confined_accept (by decide)).bind fun assigned => ?_
  cases assigned with
  | true => exact h.expression.reads.bind fun e => Reads.confined_pure _
  | false =>
    cases mutable with
    | true => exact Reads.confined_pure none
    | false => exact Reads.confined_fail fun _ => rfl

theorem returnValue_confined (h : inner.Confined) : (returnValue inner).Confined := by
  refine Reads.confined_peek_bind fun kind => Reads.ConfinedFrom.weaken ?_
  split
  · exact Reads.confined_pure none
  · exact Reads.confined_pure none
  · exact h.expression.reads.bind fun e => Reads.confined_pure (some e)

theorem ifElse_confined (h : inner.Confined) : (ifElse inner).Confined := by
  refine Takes.confined_iterate (fun before => ?_) []
  refine (confined_expect (by decide) _).andThen fun _ => h.expression.reads.bind fun condition => ?_
  refine (confined_expect (by decide) _).reads.bind fun _ => ?_
  refine (branch_confined h).reads.bind fun yes => ?_
  refine (confined_accept (by decide)).bind fun more => ?_
  cases more with
  | true =>
    refine (confined_accept (by decide)).bind fun again => ?_
    cases again with
    | true => exact Reads.confined_pure _
    | false => exact (branch_confined h).reads.bind fun no => Reads.confined_pure _
  | false => exact Reads.confined_pure _

theorem loopStatement_confined (h : inner.Confined) : (loopStatement inner).Confined := by
  have hrest : Reads.Confined (do
      let name ← (expectName "loop variable").reads
      (expect .of "'of' (only for-of loops are supported)").reads
      let elements ← inner.expression.reads
      (expect .closeParen "')' after for-of header").reads
      let body ← (branch inner).reads
      pure (Stmt.each name elements body)) := by
    refine (confined_expectName _).reads.bind fun name => ?_
    refine (confined_expect (by decide) _).reads.bind fun _ => ?_
    refine h.expression.reads.bind fun e => ?_
    refine (confined_expect (by decide) _).reads.bind fun _ => ?_
    exact (branch_confined h).reads.bind fun body => Reads.confined_pure _
  refine (confined_expect (by decide) _).reads.bind fun _ => ?_
  refine (confined_accept (by decide)).bind fun const => ?_
  dsimp only
  cases const with
  | true => exact hrest
  | false =>
    refine (confined_accept (by decide)).bind fun mutable => ?_
    cases mutable with
    | true => exact hrest
    | false => exact (Reads.confined_fail fun _ => rfl).bind fun _ => hrest

theorem expressionStatement_confined (h : inner.Confined) :
    (expressionStatement inner).Confined :=
  h.expression.andThen fun _ => statementEnd_confined.bind fun _ => Reads.confined_pure _

theorem assignment_confined (h : inner.Confined) (name : String) (change : Expr → Expr)
    {first second : Kind} (hfirst : first ≠ .eof) (hsecond : second ≠ .eof) :
    (assignment inner name change).ConfinedFrom [first, second] := by
  refine Reads.ConfinedFrom.after ((Takes.confined_token hsecond).reads.bind fun _ => ?_) hfirst
  refine h.expression.reads.bind fun value => ?_
  exact statementEnd_confined.bind fun _ => Reads.confined_pure _

theorem statement_confined (h : inner.Confined) : (statement inner).Confined := by
  refine Takes.confined_chooseByTwo (fun first second hfirst => ?_) (expressionStatement_confined h)
    fun second => rfl
  split
  · exact assignment_confined h _ _ nofun nofun
  · exact assignment_confined h _ _ nofun nofun
  · refine Reads.ConfinedFrom.after (Reads.ConfinedFrom.weaken ?_) hfirst
    exact (functionStatement_confined h).bind fun f => Reads.confined_pure _
  · exact (binding_confined h false).weaken.after hfirst
  · exact (binding_confined h true).weaken.after hfirst
  · refine Reads.ConfinedFrom.after (Reads.ConfinedFrom.weaken ?_) hfirst
    refine (returnValue_confined h).bind fun value => ?_
    exact statementEnd_confined.bind fun _ => Reads.confined_pure _
  · exact (ifElse_confined h).reads.weaken.after hfirst
  · exact (loopStatement_confined h).weaken.after hfirst
  · refine Reads.ConfinedFrom.after (Reads.ConfinedFrom.weaken ?_) hfirst
    refine h.expression.reads.bind fun value => ?_
    exact statementEnd_confined.bind fun _ => Reads.confined_pure _
  · exact ((block_confined h).andThen fun ss => Reads.confined_pure _).weaken
  · exact (expressionStatement_confined h).weaken

end

/-! ### All levels -/

theorem level_confined (room : Nat) : (level room).Confined := by
  induction room with
  | zero =>
    have htooDeep : ∀ {α : Type}, (Takes.fail .tooDeep : Takes α).Confined :=
      Takes.confined_fail fun _ => rfl
    exact ⟨htooDeep, htooDeep, htooDeep⟩
  | succ room ih =>
    exact ⟨statement_confined ih, conditional_confined ih room, operand_confined ih room⟩

/-! ### Tokens of texts -/

theorem ofWord_ne_eof (word : String) : Kind.ofWord word ≠ .eof := by
  by_cases hkeyword : ∃ k : Kind, word ∈ k.keywords
  · obtain ⟨k, hk⟩ := hkeyword
    rw [(ofWord_of_mem_keywords hk).1]
    rintro rfl
    cases hk
  · rw [ofWord_of_not_mem_keywords (not_exists.mp hkeyword)]
    nofun

theorem ne_eof_of_scanSign? {c : Char} {cs rest : List Char} {k : Kind}
    (h : scanSign? c cs = some (k, rest)) : k ≠ .eof := by
  rintro rfl
  unfold scanSign? at h
  split at h <;> cases h

theorem ne_eof_of_intLiteral {digits : List Char} {k : Kind} (h : intLiteral digits = .ok k) :
    k ≠ .eof := by
  rintro rfl
  unfold intLiteral at h
  split at h <;> cases h

theorem ne_eof_of_scanToken {c : Char} {cs rest : List Char} {k : Kind}
    (h : scanToken c cs = .ok (k, rest)) : k ≠ .eof := by
  unfold scanToken at h
  split at h
  · rename_i hsign
    obtain rfl := Except.ok.inj h
    exact ne_eof_of_scanSign? hsign
  · split_ifs at h
    · obtain ⟨r, -, hr⟩ := Traversal.map_eq_ok_iff.mp h
      obtain ⟨rfl, -⟩ := Prod.mk.inj hr
      nofun
    · obtain ⟨kind, hliteral, hr⟩ := Traversal.map_eq_ok_iff.mp h
      obtain ⟨rfl, -⟩ := Prod.mk.inj hr
      exact ne_eof_of_intLiteral hliteral
    · obtain ⟨rfl, -⟩ := Prod.mk.inj (Except.ok.inj h)
      exact ofWord_ne_eof _

theorem Cuts.isEnd {cs : List Char} {ps : List Piece} (h : Cuts cs ps) (line : Nat) :
    ∃ before last, locate line ps = before ++ [last] ∧ IsEnd before last := by
  induction h generalizing line with
  | eof _ => exact ⟨[], _, rfl, nofun, rfl⟩
  | token _ _ hscan _ ih =>
    obtain ⟨before, last, hlocate, hend⟩ := ih _
    rw [locate, hlocate]
    refine ⟨_ :: before, last, List.cons_append.symm, ?_, hend.last⟩
    intro t ht
    obtain rfl | ht := List.mem_cons.mp ht
    · exact ne_eof_of_scanToken hscan
    · exact hend.before t ht

/-- The tokens of a text end with the only one that says so. -/
theorem isEnd_of_tokenize {source : String} {ts : List Token} (h : tokenize source = .ok ts) :
    ∃ before last, ts = before ++ [last] ∧ IsEnd before last := by
  obtain ⟨ps, hps, rfl⟩ := tokenizeFrom_eq_ok_iff.mp h
  exact hps.isEnd 1

/-! ### Scripts -/

theorem statements_confined : statements.Confined := by
  refine Reads.ConfinedFrom.bind ?_ fun before => Reads.confined_pure before.reverse
  refine Reads.confined_repeat (fun before kind p hp => ?_) []
  split at hp
  · cases hp
  · obtain rfl := Option.some.inj hp
    exact ((level_confined maxLevel).statement.andThen fun s => Reads.confined_pure _).weaken

/-- Statements are read up to a token that says that the tokens end. -/
theorem kind_of_outcome_statements {ts rest : List Token} {program : Program}
    (h : statements.outcome ts = .ok (program, rest)) : (rest.headD ⟨.eof, 0⟩).kind = .eof := by
  unfold statements at h
  rw [Reads.outcome_bind] at h
  cases hloop : (Reads.repeat (fun before kind => if kind = .eof then none
      else some ((level maxLevel).statement.andThen fun s => pure (s :: before))) []).outcome ts with
  | error m =>
    rw [hloop] at h
    cases h
  | ok r =>
    rw [hloop] at h
    obtain rfl : r.2 = rest := (Prod.mk.inj (Except.ok.inj h)).2
    have hstop := Reads.next_of_outcome_repeat hloop
    by_cases hkind : (r.2.headD ⟨.eof, 0⟩).kind = .eof
    · exact hkind
    · rw [if_neg hkind] at hstop
      cases hstop

theorem ofTokens_eq_of_outcome {ts : List Token} :
    Program.ofTokens ts = (statements.outcome ts).map Prod.fst := by
  unfold Program.ofTokens Reads.outcome
  cases statements ts <;> rfl

/-- Tokens that end with the only one that says so are read as a script with all of them taken but the
end, or there is a mistake at one of them; it makes no difference what follows the end.  Whatever is
read on the way takes at least one token and leaves the end. -/
theorem ofTokens_ends {before : List Token} {last : Token} (hend : IsEnd before last) :
    ((∃ program, ∀ more, Program.ofTokens (before ++ last :: more) = .ok program ∧
        statements.outcome (before ++ last :: more) = .ok (program, last :: more)) ∨
      ∃ m, ∃ t ∈ before ++ [last], m.IsAt t ∧
        ∀ more, Program.ofTokens (before ++ last :: more) = .error m) ∧
    ∀ room,
      (level room).statement.EndsWithin before last ∧
      (level room).expression.EndsWithin before last ∧
      (level room).operand.EndsWithin before last ∧
      (branch (level room)).EndsWithin before last ∧
      (block (level room)).EndsWithin before last ∧
      ∀ chained lowest, (operation (level room) chained lowest).EndsWithin before last := by
  refine ⟨?_, fun room => ?_⟩
  · cases statements_confined before last hend List.nil_prefix with
    | value program taken left hbefore _ hvalue =>
      -- Reading stopped at the end, so no token before it is left.
      have hleft : left = [] := by
        cases left with
        | nil => rfl
        | cons t rest =>
          have hstop : t.kind = .eof := kind_of_outcome_statements (hvalue [])
          have hmem : t ∈ before := hbefore ▸ List.mem_append_right taken List.mem_cons_self
          exact absurd hstop (hend.before t hmem)
      subst hleft
      refine .inl ⟨program, fun more => ⟨?_, hvalue more⟩⟩
      rw [ofTokens_eq_of_outcome, hvalue more]
      rfl
    | mistake m t ht hm hmistake =>
      refine .inr ⟨m, t, ht, hm, fun more => ?_⟩
      rw [ofTokens_eq_of_outcome, hmistake more]
      rfl
  · have hlevel := level_confined room
    exact ⟨hlevel.statement.endsWithin hend, hlevel.expression.endsWithin hend,
      hlevel.operand.endsWithin hend, (branch_confined hlevel).endsWithin hend,
      (block_confined hlevel).endsWithin hend,
      fun chained lowest => (operation_confined hlevel chained lowest).endsWithin hend⟩

/-- The tokens of a statement with a comma at the end of a list, a call without arguments and no
semicolon, before the end. -/
def bareStatement : List Token :=
  [Kind.if, .openParen, .name "a", .closeParen, .return, .openBracket, .int 1, .comma, .closeBracket,
    .semicolon, .else, .name "f", .openParen, .closeParen].map (⟨·, 1⟩)

theorem ofTokens_ends_bareStatement : IsEnd bareStatement ⟨.eof, 2⟩ ∧
    (∀ more, statements.outcome (bareStatement ++ ⟨.eof, 2⟩ :: more) =
      .ok ([.branch (.name "a") [.return (some (.array [.literal (.int 1)]))]
        (some [.expr (.call (.name "f") [])])], ⟨.eof, 2⟩ :: more)) ∧
    (level maxLevel).statement.EndsWithin bareStatement ⟨.eof, 2⟩ := by
  have hend : IsEnd bareStatement ⟨.eof, 2⟩ := ⟨by decide, rfl⟩
  have hread : Program.ofTokens (bareStatement ++ [⟨.eof, 2⟩]) =
      .ok [.branch (.name "a") [.return (some (.array [.literal (.int 1)]))]
        (some [.expr (.call (.name "f") [])])] := by
    cbv
  obtain ⟨hscript, hlevels⟩ := ofTokens_ends hend
  refine ⟨hend, ?_, (hlevels maxLevel).1⟩
  rcases hscript with ⟨program, hprogram⟩ | ⟨m, t, -, -, hm⟩
  · intro more
    obtain rfl := Except.ok.inj (hread.symm.trans (hprogram []).1)
    exact (hprogram more).2
  · cases hread.symm.trans (hm [])

end Polyglot.Script
