import Polyglot.Proofs.Script.Precedence

/-!
# Reading what expressions are written with

An expression without functions is written with parentheses just where they are needed
(`Expr.render`).  Reading this yields the same expression, or fails since too much is nested, and
the nesting that it takes decides which (`ofTokens_render`): no expression is read as another one.
So two of them are never written alike (`render_inj`).

`Expr.IsRead` says what readers make of an expression in each place where it may stand.  There is
one lemma for each form of expression, and then an induction (`Expr.IsPlain.isRead`).
-/

namespace Polyglot.Script

variable {k : Kind} {rest : List Kind} {e : Expr} {room lowest n : Nat} {apart : Bool}

/-! ### What is read of an expression -/

/-- What readers make of what an expression is written with. -/
structure Expr.IsRead (apart : Bool) (e : Expr) : Prop where
  /-- There is no function in the expression. -/
  plain : e.IsPlain
  /-- Calls and accesses may be added to it if it needs no parentheses for this. -/
  chain : e.strength = 8 → StartsChain (e.render apart) e e.links (e.room apart)
  /-- It is read as an operand if it is one. -/
  operand : 7 ≤ e.strength → IsOperand (e.render apart) e (e.room apart)
  /-- Operators that are not stronger may follow it. -/
  operation : ∀ ⦃strength : Nat⦄, 0 < strength → strength ≤ 7 → strength ≤ e.strength →
    StartsOperation strength (e.render apart) e e.turns (e.room apart)
  /-- It is read as an expression. -/
  expression : IsExpression (e.render apart) e (e.room apart)

namespace Expr.IsRead

theorem of_operation (hplain : e.IsPlain) (hstrength : e.strength < 7) (hpos : 0 < e.strength)
    (h : StartsOperation e.strength (e.render apart) e e.turns (e.room apart)) :
    e.IsRead apart where
  plain := hplain
  chain heq := by omega
  operand hle := by omega
  operation _ _ _ hle := h.mono hle
  expression := h.isExpression hpos

theorem of_operand (hplain : e.IsPlain) (hstrength : e.strength = 7)
    (h : IsOperand (e.render apart) e (e.room apart)) : e.IsRead apart where
  plain := hplain
  chain heq := by omega
  operand _ := h
  operation _ _ hle _ := by
    rw [turns_eq_zero (Nat.le_of_eq hstrength.symm)]
    exact h.startsOperation hle
  expression := (h.startsOperation (Nat.le_refl 7)).isExpression (by decide)

theorem of_chain (hplain : e.IsPlain) (hstrength : e.strength = 8)
    (h : StartsChain (e.render apart) e e.links (e.room apart)) : e.IsRead apart where
  plain := hplain
  chain _ := h
  operand _ := h.isOperand hplain.room_pos
  operation _ _ hle _ := by
    rw [turns_eq_zero (by omega)]
    exact (h.isOperand hplain.room_pos).startsOperation hle
  expression := ((h.isOperand hplain.room_pos).startsOperation (Nat.le_refl 7)).isExpression (by decide)

/-! ### Parentheses -/

theorem paren (h : e.IsRead apart) :
    StartsChain (.openParen :: (e.render apart ++ [.closeParen])) e 0 (e.room apart + 2) :=
  h.expression.startsChain h.plain.arrow_not_mem

theorem chain_enclosed (h : e.IsRead apart) :
    StartsChain (enclosed 8 e.strength (e.render apart)) e e.links
      (enclosedRoom 8 e.strength (e.room apart)) := by
  rw [enclosed, enclosedRoom]
  split
  · rename_i hlt
    rw [links_eq_zero hlt]
    exact h.paren
  · rename_i hlt
    exact h.chain (Nat.le_antisymm e.strength_le (Nat.not_lt.mp hlt))

theorem operand_enclosed (h : e.IsRead apart) (hlowest : 7 ≤ lowest) :
    IsOperand (enclosed lowest e.strength (e.render apart)) e
      (enclosedRoom lowest e.strength (e.room apart)) := by
  rw [enclosed, enclosedRoom]
  split
  · exact h.paren.isOperand (Nat.succ_pos _)
  · rename_i hlt
    exact h.operand (Nat.le_trans hlowest (Nat.not_lt.mp hlt))

theorem operation_enclosed (h : e.IsRead apart) (hpos : 0 < n) (hle : n ≤ 7) :
    StartsOperation n (enclosed n e.strength (e.render apart)) e
      (enclosedTurns n e.strength e.turns) (enclosedRoom n e.strength (e.room apart)) := by
  rw [enclosed, enclosedRoom, enclosedTurns]
  split
  · exact (h.paren.isOperand (Nat.succ_pos _)).startsOperation hle
  · rename_i hlt
    exact h.operation hpos hle (Nat.not_lt.mp hlt)

/-! ### One lemma for each form of expression -/

theorem literal (v : Literal) : (Expr.literal v).IsRead apart := by
  refine of_chain (.literal v) rfl ?_
  have hsign : v.kind ≠ .bang ∧ v.kind ≠ .minus := by
    rcases v with n | s | (_ | _) | _ <;> simp [Literal.kind]
  refine .of_primary (fun _ => pure (.literal v)) hsign.1 hsign.2 (by simp [v.kind_ne_arrow])
    (fun room ts hno hk => ?_) fun room rest _ => ?_
  · rw [primary, if_neg (by simp [hno]), Takes.choose, hk]
    rcases v with n | s | (_ | _) | _ <;> rfl
  · exact Reads.Gives.pure.congr (by simp [Expr.room])

theorem name (x : String) : (Expr.name x).IsRead apart := by
  refine of_chain (.name x) rfl ?_
  refine .of_primary (fun _ => pure (.name x)) nofun nofun (by simp) (fun room ts hno hk => ?_)
    fun room rest _ => ?_
  · rw [primary, if_neg (by simp [hno]), Takes.choose, hk]
  · exact Reads.Gives.pure.congr (by simp [Expr.room])

theorem member (h : e.IsRead apart) (x : String) : (Expr.member e x).IsRead apart := by
  refine of_chain (.member h.plain x) rfl ?_
  have hread : ∀ room rest, .arrow ∉ rest → Reads.Gives (do
      let property ← (expectName "property name after '.'").reads
      pure (Expr.member e property, e.links + 1)) (.name x :: rest) (0 ≤ room)
        (.member e x, e.links + 1) rest := by
    intro room rest _
    exact ((gives_expectName _ x).reads.bind_pure fun property =>
      (Expr.member e property, e.links + 1)).congr (by simp)
  have hdot : .arrow ∉ [Kind.dot, .name x] := by simp
  have hchain := h.chain_enclosed.extend hdot (fun _ => rfl) hread
  rwa [Nat.max_eq_left (Nat.succ_le_succ (Nat.zero_le _))] at hchain

theorem index {target position : Expr} (htarget : target.IsRead apart)
    (hposition : position.IsRead apart) : (Expr.index target position).IsRead apart := by
  refine of_chain (.index htarget.plain hposition.plain) rfl ?_
  have hread : ∀ room rest, .arrow ∉ rest → Reads.Gives (do
      let position ← (level room).expression.reads
      (expect .closeBracket "']' after index").reads
      pure (Expr.index target position, target.links + 1))
        ((position.render apart ++ [.closeBracket]) ++ rest) (position.room apart + 1 ≤ room)
          (.index target position, target.links + 1) rest := by
    intro room rest hrest
    have hclose : Follows 0 (.closeBracket :: rest) := .cons (by decide) (by decide) hrest
    rw [List.append_assoc]
    refine .congr (P := position.room apart + 1 ≤ room ∧ True) ?_ (iff_of_eq (and_true _))
    exact (hposition.expression hclose).reads.bind fun _ => (gives_expect _).reads.bind_pure _
  exact htarget.chain_enclosed.extend (by simp [hposition.plain.arrow_not_mem]) (fun _ => rfl) hread

theorem unary (op : UnaryOp) (h : e.IsRead apart) : (Expr.unary op e).IsRead apart := by
  have hlimit : 7 ≤ signLimit apart := by cases apart <;> decide
  exact of_operand (.unary op h.plain) rfl ((h.operand_enclosed hlimit).unary op)

theorem operator_enclosed {build : Expr → Expr → Expr} {precedence : Fin 6} {left right : Expr}
    (hk : operator? k = some (build, precedence)) (hleft : left.IsRead apart)
    (hright : right.IsRead apart) : StartsOperation (precedence.val + 1)
      (enclosed (precedence.val + 1) left.strength (left.render apart) ++
        k :: enclosed (precedence.val + 2) right.strength (right.render apart)) (build left right)
      (enclosedTurns (precedence.val + 1) left.strength left.turns + 1)
      (max (enclosedRoom (precedence.val + 1) left.strength (left.room apart))
        (max (enclosedTurns (precedence.val + 1) left.strength left.turns + 2)
          (enclosedRoom (precedence.val + 2) right.strength (right.room apart)))) :=
  .operator hk (hleft.operation_enclosed (by omega) (by omega))
    (hright.operation_enclosed (by omega) (by omega))
    (arrow_not_mem_enclosed hright.plain.arrow_not_mem)

theorem binary (op : BinaryOp) {left right : Expr} (hleft : left.IsRead apart)
    (hright : right.IsRead apart) : (Expr.binary op left right).IsRead apart := by
  obtain ⟨precedence, hk, hstrength⟩ : ∃ precedence : Fin 6,
      operator? op.kind = some (.binary op, precedence) ∧ op.strength = precedence.val + 1 := by
    cases op <;> exact ⟨_, rfl, rfl⟩
  refine of_operation (.binary op hleft.plain hright.plain) (Nat.lt_succ_of_le op.strength_le)
    op.strength_pos ?_
  rw [render, turns, room, strength, hstrength]
  exact operator_enclosed hk hleft hright

theorem logical (op : LogicalOp) {left right : Expr} (hleft : left.IsRead apart)
    (hright : right.IsRead apart) : (Expr.logical op left right).IsRead apart := by
  obtain ⟨precedence, hk, hstrength⟩ : ∃ precedence : Fin 6,
      operator? op.kind = some (.logical op, precedence) ∧ op.strength = precedence.val + 1 := by
    cases op <;> exact ⟨_, rfl, rfl⟩
  refine of_operation (.logical op hleft.plain hright.plain) (Nat.lt_succ_of_le op.strength_le)
    op.strength_pos ?_
  rw [render, turns, room, strength, hstrength]
  exact operator_enclosed hk hleft hright

theorem conditional {condition yes no : Expr} (hcondition : condition.IsRead apart)
    (hyes : yes.IsRead apart) (hno : no.IsRead apart) :
    (Expr.conditional condition yes no).IsRead apart where
  plain := .conditional hcondition.plain hyes.plain hno.plain
  chain := nofun
  operand := nofun
  operation _ hpos _ hle := absurd hpos (Nat.not_lt.mpr hle)
  expression := (hcondition.operation_enclosed (by decide) (by decide)).conditional hyes.expression
    hno.expression hyes.plain.arrow_not_mem hno.plain.arrow_not_mem

/-- Expressions with commas between them are read by a loop that takes one in each turn. -/
theorem gives_items {step : List Expr → Takes (List Expr ⊕ List Expr)} {close : Kind}
    (what : String) (hstep : ∀ before ts, (ts.headD ⟨.eof, 0⟩).kind.beginsExpr = true →
      step before ts = itemPart (level room).expression close what before ts)
    (hcomma : close ≠ .comma) (hclose : Follows 0 (close :: rest)) {es : List Expr}
    (hes : ∀ e ∈ es, e.IsRead apart) (hne : es ≠ []) (before : List Expr) :
    (Takes.iterate step before).Gives (renderAll apart es ++ close :: rest)
      (roomAll apart es ≤ room) (before.reverse ++ es) rest := by
  -- The step may look for the end of the list first, with which no expression begins.
  have htake : ∀ {e : Expr} {tail mid : List Kind} {P : Prop} {r : List Expr ⊕ List Expr}
      (before : List Expr), e.IsPlain →
        (itemPart (level room).expression close what before).Gives (e.render apart ++ tail) P r mid →
          (step before).Gives (e.render apart ++ tail) P r mid := by
    intro e tail mid P r before he hitem ts hts
    rw [hstep before ts (by rw [kind_headD, hts]; exact he.beginsExpr tail)]
    exact hitem ts hts
  induction es generalizing before with
  | nil => exact absurd rfl hne
  | cons e es ih =>
    obtain ⟨he, hes⟩ := List.forall_mem_cons.mp hes
    cases es with
    | nil =>
      have hlast := htake before he.plain (gives_itemPart_close hcomma (he.expression hclose))
      have hread := Takes.Gives.iterate_of_inr hlast
      rw [List.reverse_cons] at hread
      exact hread.congr (by simp [roomAll])
    | cons f es =>
      have harrow : .arrow ∉ renderAll apart (f :: es) ++ close :: rest := by
        have hall : .arrow ∉ renderAll apart (f :: es) :=
          arrow_not_mem_renderAll fun e he => (hes e he).plain.arrow_not_mem
        simpa [hall] using hclose.arrow
      have hitem := htake before he.plain <|
        gives_itemPart_comma (he.expression (.cons (by decide) (by decide) harrow))
      have hread := hitem.iterate_of_inl fun _ => ih hes (by simp) (e :: before)
      rw [List.reverse_cons, List.append_assoc] at hread
      rw [renderAll, List.append_assoc, List.cons_append]
      refine hread.congr ?_
      rw [roomAll.eq_2 apart e]
      omega

theorem array {es : List Expr} (hes : ∀ e ∈ es, e.IsRead apart) :
    (Expr.array es).IsRead apart := by
  refine of_chain (.array fun e he => (hes e he).plain) rfl ?_
  have harrow : .arrow ∉ renderAll apart es :=
    arrow_not_mem_renderAll fun e he => (hes e he).plain.arrow_not_mem
  refine .of_primary (fun room => do pure (.array (← (arrayItems (level room).expression).reads)))
    (by decide) (by decide) (by simp [harrow]) (fun room ts hno hk => ?_) fun room rest hrest => ?_
  · rw [primary, if_neg (by simp [hno]), Takes.choose, hk]
  · have hclose : Follows 0 (.closeBracket :: rest) := .cons (by decide) (by decide) hrest
    have hitems : (arrayItems (level room).expression).Gives
        (renderAll apart es ++ .closeBracket :: rest) (roomAll apart es ≤ room) es rest := by
      cases es with
      | nil => exact .iterate_of_inr (.choose ((Takes.Gives.after .pure).congr (by simp [roomAll])))
      | cons e es =>
        refine gives_items "']' after array items" (fun before ts hbegins => ?_) (by decide) hclose
          hes (by simp) []
        rw [Takes.choose]
        generalize (ts.headD ⟨.eof, 0⟩).kind = k at hbegins ⊢
        cases k <;> first | rfl | cases hbegins
    rw [List.append_assoc]
    exact (hitems.reads.bind_pure Expr.array).congr (by rw [Expr.room, Nat.succ_le_succ_iff])

theorem call {callee : Expr} {arguments : List Expr} (hcallee : callee.IsRead apart)
    (harguments : ∀ e ∈ arguments, e.IsRead apart) :
    (Expr.call callee arguments).IsRead apart := by
  refine of_chain (.call hcallee.plain fun e he => (harguments e he).plain) rfl ?_
  have harrow : .arrow ∉ renderAll apart arguments :=
    arrow_not_mem_renderAll fun e he => (harguments e he).plain.arrow_not_mem
  have hread : ∀ room rest, .arrow ∉ rest → Reads.Gives (do
      let arguments ← (parenthesized (level room).expression "')' after arguments").reads
      pure (Expr.call callee arguments, callee.links + 1))
        ((renderAll apart arguments ++ [.closeParen]) ++ rest) (roomAll apart arguments ≤ room)
          (.call callee arguments, callee.links + 1) rest := by
    intro room rest hrest
    have hclose : Follows 0 (.closeParen :: rest) := .cons (by decide) (by decide) hrest
    rw [List.append_assoc]
    refine (Takes.Gives.choose ?_).reads.bind_pure fun es => (Expr.call callee es, callee.links + 1)
    cases arguments with
    | nil => exact (Takes.Gives.after .pure).congr (by simp [roomAll])
    | cons e es =>
      have hbegins : ((renderAll apart (e :: es) ++ .closeParen :: rest).headD .eof).beginsExpr :=
        beginsExpr_renderAll (harguments e List.mem_cons_self).plain es _
      split
      · rename_i hk
        rw [List.singleton_append] at hk
        rw [hk] at hbegins
        cases hbegins
      · exact gives_items _ (fun _ _ _ => rfl) (by decide) hclose harguments (by simp) []
  exact hcallee.chain_enclosed.extend (by simp [harrow]) (fun _ => rfl) hread

end Expr.IsRead

/-- Every expression without functions is read from what it is written with. -/
theorem Expr.IsPlain.isRead (h : e.IsPlain) : e.IsRead apart := by
  -- By induction on the expression; the nesting and what follows are left open in `Expr.IsRead`.
  induction h with
  | literal v => exact .literal v
  | name x => exact .name x
  | array _ ih => exact .array ih
  | call _ _ hcallee harguments => exact hcallee.call harguments
  | index _ _ htarget hposition => exact htarget.index hposition
  | member _ x htarget => exact htarget.member x
  | unary op _ ih => exact ih.unary op
  | binary op _ _ hleft hright => exact hleft.binary op hright
  | logical op _ _ hleft hright => exact hleft.logical op hright
  | conditional _ _ _ hcondition hyes hno => exact hcondition.conditional hyes hno

/-- What an expression is written with belongs to no other expression. -/
theorem render_inj {f : Expr} (he : e.IsPlain) (hf : f.IsPlain)
    (h : e.render apart = f.render apart) : e = f := by
  let ts : List Token := (e.render apart).map (⟨·, 1⟩)
  have hts : ts.map Token.kind = e.render apart ++ [] := by
    rw [List.map_map, List.append_nil]
    exact List.map_id _
  have hend : Follows 0 [] := ⟨List.not_mem_nil, Nat.le_refl 0⟩
  -- A level that has room for both reads both from the same tokens.
  let room := max (e.room apart) (f.room apart) + 1
  have hroom : e.room apart + 1 ≤ room ∧ f.room apart + 1 ≤ room := by
    constructor <;> simp only [room] <;> omega
  obtain ⟨r, hread, -⟩ := (he.isRead.expression hend ts hts).ok hroom.1
  obtain ⟨r', hread', -⟩ := (hf.isRead.expression hend ts (h ▸ hts)).ok hroom.2
  rw [hread] at hread'
  exact (Prod.mk.inj (Except.ok.inj hread')).1

/-! ### Scripts -/

theorem gives_return (h : e.IsPlain) (hrest : .arrow ∉ rest) :
    (level (room + 1)).statement.Gives (.return :: (e.render apart ++ .semicolon :: rest))
      (e.room apart + 1 ≤ room) (.return (some e)) rest := by
  have hsemicolon : Follows 0 (.semicolon :: rest) := .cons (by decide) (by decide) hrest
  have hvalue : (returnValue (level room)).Gives (e.render apart ++ .semicolon :: rest)
      (True ∧ e.room apart + 1 ≤ room) (some e) (.semicolon :: rest) := by
    refine Reads.Gives.peek.bind fun _ => ?_
    have hbegins : ((e.render apart ++ .semicolon :: rest).headD .eof).beginsExpr :=
      h.beginsExpr _
    split
    · rename_i hk
      rw [hk] at hbegins
      cases hbegins
    · rename_i hk
      rw [hk] at hbegins
      cases hbegins
    · exact (h.isRead.expression hsemicolon).reads.bind_pure some
  have hend : statementEnd.Gives (.semicolon :: rest) True () rest := gives_accept.bind_pure _
  have hrest : Reads.Gives (do
      let value ← returnValue (level room)
      statementEnd
      pure (Stmt.return value)) (e.render apart ++ .semicolon :: rest)
        ((True ∧ e.room apart + 1 ≤ room) ∧ True) (.return (some e)) rest :=
    hvalue.bind fun _ => hend.bind_pure _
  change (statement (level room)).Gives _ _ _ _
  refine .chooseByTwo ?_
  exact (Takes.Gives.after hrest).congr (by rw [true_and, and_true])

theorem gives_statements (h : e.IsPlain) :
    statements.Gives (.return :: (e.render apart ++ [.semicolon, .eof]))
      (e.room apart + 2 ≤ maxLevel) [.return (some e)] [.eof] := by
  have hread : (level maxLevel).statement.Gives (.return :: (e.render apart ++ [.semicolon, .eof]))
      (e.room apart + 1 ≤ 127) (.return (some e)) [.eof] := gives_return h (by decide)
  refine .congr (P := (e.room apart + 1 ≤ 127 ∧ True) ∧ True) ?_ ?_
  · refine .bind_pure (a := [Stmt.return (some e)]) ?_ List.reverse
    exact .repeat_of_some rfl (hread.andThen fun _ => .pure) fun _ => .repeat_of_none rfl
  · rw [and_true, and_true, maxLevel]
    omega

/-- An expression that is written with parentheses just where they are needed is read as itself,
unless too much is nested: then reading fails for this reason. -/
theorem ofTokens_render (apart : Bool) {e : Expr} (h : e.IsPlain) {ts : List Token}
    (hts : ts.map Token.kind = .return :: (e.render apart ++ [.semicolon, .eof])) :
    (e.room apart + 2 ≤ maxLevel → Program.ofTokens ts = .ok [.return (some e)]) ∧
      (maxLevel < e.room apart + 2 →
        ∃ line kind, Program.ofTokens ts = .error ⟨line, .tooDeep kind⟩) := by
  have hend := gives_statements h ts hts
  refine ⟨fun hroom => ?_, fun hroom => ?_⟩
  · obtain ⟨r, hread, -⟩ := hend.ok hroom
    rw [Program.ofTokens, hread]
    rfl
  · obtain ⟨line, kind, hfail⟩ := hend.tooDeep (Nat.not_le.mpr hroom)
    exact ⟨line, kind, by rw [Program.ofTokens, hfail]; rfl⟩

/-- A conditional on a conditional, with operators of one strength on both sides of an operator, signs
in front of what is accessed, and a list that is indexed and called. -/
def mixedExpr : Expr :=
  .conditional (.conditional (.name "a") (.name "b") (.name "c"))
    (.binary .sub (.binary .sub (.name "x") (.literal (.int 1)))
      (.binary .sub (.unary .neg (.name "y")) (.binary .mul (.literal (.int 2)) (.name "z"))))
    (.logical .or (.unary .neg (.unary .not (.member (.binary .add (.name "p") (.name "q")) "r")))
      (.call (.index (.array [.name "f", .literal (.text "g")]) (.literal (.int 0)))
        [.logical .or (.name "s") (.literal .null),
          .conditional (.name "t") (.name "u") (.name "v")]))

/-- What `return` and `mixedExpr` are written with. -/
def mixedKinds : List Kind :=
  [.return, .openParen, .name "a", .question, .name "b", .colon, .name "c", .closeParen, .question,
    .name "x", .minus, .int 1, .minus, .openParen, .minus, .name "y", .minus, .int 2, .star,
    .name "z", .closeParen, .colon, .minus, .bang, .openParen, .name "p", .plus, .name "q",
    .closeParen, .dot, .name "r", .or, .openBracket, .name "f", .comma, .text "g", .closeBracket,
    .openBracket, .int 0, .closeBracket, .openParen, .name "s", .or, .null, .comma, .name "t",
    .question, .name "u", .colon, .name "v", .closeParen, .semicolon, .eof]

theorem isPlain_mixedExpr : mixedExpr.IsPlain := by
  have hcondition : (Expr.conditional (.name "a") (.name "b") (.name "c")).IsPlain :=
    .conditional (.name _) (.name _) (.name _)
  have hlist : ∀ e ∈ [Expr.name "f", .literal (.text "g")], e.IsPlain :=
    List.forall_mem_cons.mpr ⟨.name _, List.forall_mem_singleton.mpr (.literal _)⟩
  have harguments : ∀ e ∈ [Expr.logical .or (.name "s") (.literal .null),
      .conditional (.name "t") (.name "u") (.name "v")], e.IsPlain :=
    List.forall_mem_cons.mpr ⟨.logical _ (.name _) (.literal _),
      List.forall_mem_singleton.mpr (.conditional (.name _) (.name _) (.name _))⟩
  exact .conditional hcondition
    (.binary _ (.binary _ (.name _) (.literal _))
      (.binary _ (.unary _ (.name _)) (.binary _ (.literal _) (.name _))))
    (.logical _ (.unary _ (.unary _ (.member (.binary _ (.name _) (.name _)) _)))
      (.call (.index (.array hlist) (.literal _)) harguments))

theorem ofTokens_render_mixed : mixedExpr.IsPlain ∧
    (mixedKinds.map (⟨·, 1⟩)).map Token.kind =
      .return :: (mixedExpr.render false ++ [.semicolon, .eof]) ∧
    Program.ofTokens (mixedKinds.map (⟨·, 1⟩)) = .ok [.return (some mixedExpr)] :=
  ⟨isPlain_mixedExpr, rfl, (ofTokens_render false isPlain_mixedExpr rfl).1 (by decide)⟩

end Polyglot.Script
