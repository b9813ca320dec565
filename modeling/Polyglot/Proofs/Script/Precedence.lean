import Polyglot.Proofs.Script.Outcome
import Polyglot.Proofs.Script.Parentheses

/-!
# Reading operands and operations

Tokens are read as an expression, as an operand, as the beginning of a chain of calls and accesses,
or as the beginning of an operation.  `IsExpression`, `IsOperand`, `StartsChain` and `StartsOperation`
say so of tokens, with the nesting that it takes.  What begins a chain or an operation is what the
loop over calls or over operators goes on from, so the last two speak of whatever the loop makes of
the tokens behind.  Each is derived from the one that it contains, and there is a lemma for each way
to put larger ones together.

What follows an expression must not bind it (`Follows`): the loops go on as long as they can.
-/

namespace Polyglot.Script

variable {P Q : Prop} {k : Kind} {ks rest rest' : List Kind} {e : Expr} {s : Expr × Nat}
  {room lowest n m : Nat}

/-! ### What may follow an expression -/

/-- How closely a token binds the expression before it, if at all. -/
def Kind.strength (k : Kind) : Nat :=
  match operator? k with
  | some (_, precedence) => precedence.val + 1
  | none =>
    match k with
    | .question => 1
    | .openParen => 8
    | .openBracket => 8
    | .dot => 8
    | _ => 0

theorem strength_of_operator? {build : Expr → Expr → Expr} {precedence : Fin 6}
    (h : operator? k = some (build, precedence)) : k.strength = precedence.val + 1 := by
  unfold Kind.strength
  rw [h]

/-- Whether tokens may follow an expression that holds together as closely as given: the first one
does not bind more closely, and there is no arrow. -/
structure Follows (strength : Nat) (rest : List Kind) : Prop where
  /-- There is no arrow. -/
  arrow : .arrow ∉ rest
  /-- The first token does not bind more closely. -/
  strength_le : (rest.headD .eof).strength ≤ strength

theorem Follows.mono (h : Follows n rest) (hle : n ≤ m) : Follows m rest :=
  ⟨h.arrow, Nat.le_trans h.strength_le hle⟩

theorem Follows.cons (hk : k.strength ≤ n) (hne : k ≠ .arrow) (hks : .arrow ∉ ks) :
    Follows n (k :: ks) :=
  ⟨by simp [hne.symm, hks], hk⟩

/-! ### Arrows -/

theorem parametersThenArrow_eq_false {ts : List Token} (h : .arrow ∉ ts.map Token.kind) :
    parametersThenArrow ts = false := by
  induction ts with
  | nil => rfl
  | cons t ts ih =>
    have hts : .arrow ∉ ts.map Token.kind := fun hmem => h (List.mem_cons_of_mem _ hmem)
    rw [parametersThenArrow]
    split
    · exact ih hts
    · exact ih hts
    · cases ts with
      | nil => rfl
      | cons u ts => simpa using fun hu => hts (by simp [hu])
    · rfl

/-- Without an arrow there is no function that is written with one. -/
theorem startsArrow_eq_false {ts : List Token} (h : .arrow ∉ ts.map Token.kind) :
    startsArrow ts = false := by
  cases ts with
  | nil => rfl
  | cons t ts =>
    have hts : .arrow ∉ ts.map Token.kind := fun hmem => h (List.mem_cons_of_mem _ hmem)
    rw [startsArrow]
    split
    · cases ts with
      | nil => rfl
      | cons u ts => simpa using fun hu => hts (by simp [hu])
    · exact parametersThenArrow_eq_false hts
    · rfl

/-! ### Turns of the loops -/

/-- What comes after a token in a turn of a loop is read if there is room for one more turn. -/
theorem gives_turn {p : Reads (Expr × Nat)} (h : p.Gives ks P s rest) :
    (if room ≤ n + 1 then Takes.fail .tooDeep else Takes.after p).Gives (k :: ks)
      (n + 2 ≤ room ∧ P) s rest := by
  split
  · rename_i hroom
    exact Takes.Gives.tooDeep.congr (iff_of_false id fun hturn => by omega)
  · rename_i hroom
    exact (Takes.Gives.after h).congr (iff_and_self.mpr fun _ => by omega)

/-- The calls and accesses in a row behind what has been read. -/
def postfixes (room : Nat) : Expr × Nat → Reads (Expr × Nat) :=
  Reads.repeat (postfixPart (level room) room)

theorem postfixPart_eq_none {inner : Level} (h : k.strength ≤ 7) :
    postfixPart inner room s k = none := by
  cases k <;> first | rfl | exact absurd h (by decide)

theorem gives_postfixes_nil (h : Follows 7 rest) : (postfixes room s).Gives rest True s rest :=
  .repeat_of_none (postfixPart_eq_none h.strength_le)

theorem gives_postfixes_cons {p : Reads (Expr × Nat)} {s' result : Expr × Nat} {mid : List Kind}
    (hk : postfixPart (level room) room s k = postfixPart.guarded room s p)
    (hp : p.Gives ks P s' mid) (hrest : P → (postfixes room s').Gives mid Q result rest) :
    (postfixes room s).Gives (k :: ks) ((s.2 + 2 ≤ room ∧ P) ∧ Q) result rest := by
  refine .repeat_of_some (p := if room ≤ s.2 + 1 then Takes.fail .tooDeep else Takes.after p) ?_
    (gives_turn hp) fun h => hrest h.2
  rw [List.headD_cons, hk, postfixPart.guarded]
  split <;> rfl

/-- What the first token after an operand has the loop over operators do. -/
def operatorPart (inner : Level) (room lowest : Nat) (state : Expr × Nat) (kind : Kind) :
    Option (Takes (Expr × Nat)) :=
  match operator? kind with
  | none => none
  | some (build, precedence) =>
    if precedence.val < lowest then none
    else if room ≤ state.2 + 1 then some (Takes.fail .tooDeep)
    else some (Takes.after do
      let right ← (operation inner room (precedence.val + 1)).reads
      pure (build state.1 right, state.2 + 1))

/-- The operators, and their right operands, behind what has been read. -/
def operators (room lowest : Nat) : Expr × Nat → Reads (Expr × Nat) :=
  Reads.repeat (operatorPart (level room) room lowest)

theorem operation_eq (room lowest : Nat) : operation (level room) room lowest =
    (level room).operand.andThen fun first =>
      operators room lowest (first, 0) >>= fun s => pure s.1 := by
  rw [operation]
  rfl

theorem gives_operators_nil (h : Follows lowest rest) :
    (operators room lowest s).Gives rest True s rest := by
  refine .repeat_of_none ?_
  rw [operatorPart]
  split
  · rfl
  · rename_i build precedence hoperator
    have hstrength := h.strength_le
    rw [strength_of_operator? hoperator] at hstrength
    exact if_pos hstrength

theorem gives_operators_cons {build : Expr → Expr → Expr} {precedence : Fin 6} {right : Expr}
    {result : Expr × Nat} {mid : List Kind} (hk : operator? k = some (build, precedence))
    (hlowest : lowest ≤ precedence.val)
    (hright : (operation (level room) room (precedence.val + 1)).Gives ks P right mid)
    (hrest : P → (operators room lowest (build s.1 right, s.2 + 1)).Gives mid Q result rest) :
    (operators room lowest s).Gives (k :: ks) ((s.2 + 2 ≤ room ∧ P) ∧ Q) result rest := by
  have hturn : Reads.Gives (do
      let right ← (operation (level room) room (precedence.val + 1)).reads
      pure (build s.1 right, s.2 + 1)) ks P (build s.1 right, s.2 + 1) mid :=
    hright.reads.bind_pure fun right => (build s.1 right, s.2 + 1)
  -- The operator is not too weak, so the loop goes on with it.
  refine .repeat_of_some ?_ (gives_turn hturn) fun h => hrest h.2
  rw [List.headD_cons, operatorPart, hk]
  dsimp only
  rw [if_neg (Nat.not_lt.mpr hlowest)]
  split <;> rfl

/-! ### Where tokens are read -/

/-- Whether an operand that begins with the tokens goes on as the loop over calls and accesses does
from the expression, after the given number of turns. -/
def StartsChain (ks : List Kind) (e : Expr) (links needed : Nat) : Prop :=
  ∀ ⦃room : Nat⦄ ⦃rest rest' : List Kind⦄ ⦃Q : Prop⦄ ⦃s : Expr × Nat⦄, .arrow ∉ rest →
    (postfixes room (e, links)).Gives rest Q s rest' →
      (level (room + 1)).operand.Gives (ks ++ rest) (needed ≤ room + 1 ∧ Q) s.1 rest'

/-- Whether the tokens are read as an operand where no call or access follows. -/
def IsOperand (ks : List Kind) (e : Expr) (needed : Nat) : Prop :=
  ∀ ⦃room : Nat⦄ ⦃rest : List Kind⦄, Follows 7 rest →
    (level room).operand.Gives (ks ++ rest) (needed ≤ room) e rest

/-- Whether an operation that begins with the tokens goes on as the loop over operators does from
the expression, after the given number of turns. -/
def StartsOperation (strength : Nat) (ks : List Kind) (e : Expr) (turns needed : Nat) : Prop :=
  ∀ ⦃room lowest : Nat⦄ ⦃rest rest' : List Kind⦄ ⦃Q : Prop⦄ ⦃s : Expr × Nat⦄, lowest < strength →
    Follows strength rest → (operators room lowest (e, turns)).Gives rest Q s rest' →
      (operation (level room) room lowest).Gives (ks ++ rest) (needed ≤ room ∧ Q) s.1 rest'

/-- Whether the tokens are read as an expression where nothing follows that binds it. -/
def IsExpression (ks : List Kind) (e : Expr) (needed : Nat) : Prop :=
  ∀ ⦃room : Nat⦄ ⦃rest : List Kind⦄, Follows 0 rest →
    (level room).expression.Gives (ks ++ rest) (needed + 1 ≤ room) e rest

/-- What may begin a chain is an operand where no chain follows, as the loop ends at once. -/
theorem StartsChain.isOperand {links needed : Nat} (h : StartsChain ks e links needed)
    (hneeded : 0 < needed) : IsOperand ks e needed := by
  intro room rest hrest
  cases room with
  | zero => exact Takes.Gives.tooDeep.congr (iff_of_false id (by omega))
  | succ room => exact (h hrest.arrow (gives_postfixes_nil hrest)).congr (iff_of_eq (and_true _))

/-- An operand begins an operation, with no turn of the loop taken. -/
theorem IsOperand.startsOperation {needed strength : Nat} (h : IsOperand ks e needed)
    (hstrength : strength ≤ 7) : StartsOperation strength ks e 0 needed := by
  intro room lowest rest rest' Q s _ hrest hloop
  rw [operation_eq]
  exact (h (hrest.mono hstrength)).andThen fun _ => hloop.bind_pure Prod.fst

theorem StartsOperation.mono {strength turns needed : Nat}
    (h : StartsOperation strength ks e turns needed) (hle : n ≤ strength) :
    StartsOperation n ks e turns needed :=
  fun _ _ _ _ _ _ hlowest hrest => h (Nat.lt_of_lt_of_le hlowest hle) (hrest.mono hle)

/-- An operation is read where only operators follow that are too weak. -/
theorem StartsOperation.gives {strength turns needed : Nat}
    (h : StartsOperation strength ks e turns needed) (hlowest : lowest < strength)
    (hrest : Follows lowest rest) :
    (operation (level room) room lowest).Gives (ks ++ rest) (needed ≤ room) e rest :=
  (h hlowest (hrest.mono (Nat.le_of_lt hlowest)) (gives_operators_nil hrest)).congr
    (iff_of_eq (and_true _))

/-- An operation is an expression, as no question mark follows it. -/
theorem StartsOperation.isExpression {strength turns needed : Nat}
    (h : StartsOperation strength ks e turns needed) (hstrength : 0 < strength) :
    IsExpression ks e needed := by
  intro room rest hrest
  cases room with
  | zero => exact Takes.Gives.tooDeep.congr (iff_of_false id (by omega))
  | succ room =>
    -- A question mark would bind the operation as a condition.
    have hquestion : rest.headD .eof ≠ .question := by
      intro hk
      have hstrength := hrest.strength_le
      rw [hk] at hstrength
      exact absurd hstrength (by decide)
    have hread : (conditional (level room) room).Gives (ks ++ rest) (needed ≤ room ∧ True ∧ True) e
        rest :=
      (h.gives hstrength hrest).andThen fun _ => (gives_accept_of_ne hquestion).bind fun _ => .pure
    exact hread.congr (by rw [and_true, and_true, Nat.succ_le_succ_iff])

/-- The right operand of an operator holds together more closely than the left one has to. -/
theorem StartsOperation.operator {build : Expr → Expr → Expr} {precedence : Fin 6}
    {ls rs : List Kind} {left right : Expr} {turns turns' : Nat}
    (hk : operator? k = some (build, precedence))
    (hleft : StartsOperation (precedence.val + 1) ls left turns n)
    (hright : StartsOperation (precedence.val + 2) rs right turns' m) (harrow : .arrow ∉ rs) :
    StartsOperation (precedence.val + 1) (ls ++ k :: rs) (build left right) (turns + 1)
      (max n (max (turns + 2) m)) := by
  intro room lowest rest rest' Q s hlowest hrest hloop
  have hstrength := strength_of_operator? hk
  have hne : k ≠ .arrow := by
    rintro rfl
    cases hk
  have hafter : Follows (precedence.val + 1) (k :: (rs ++ rest)) :=
    .cons (Nat.le_of_eq hstrength) hne (by simp [harrow, hrest.arrow])
  -- The loop takes the operator, and the right operand up to what is not stronger.
  have hturn : (operators room lowest (left, turns)).Gives (k :: (rs ++ rest))
      ((turns + 2 ≤ room ∧ m ≤ room) ∧ Q) s rest' :=
    gives_operators_cons hk (Nat.le_of_lt_succ hlowest) (hright.gives (Nat.lt_succ_self _) hrest)
      fun _ => hloop
  rw [List.append_assoc, List.cons_append]
  refine (hleft hlowest hafter hturn).congr ?_
  rw [← and_assoc]
  refine and_congr_left fun _ => ?_
  omega

/-- A sign takes the operand behind it. -/
theorem IsOperand.unary {needed : Nat} (h : IsOperand ks e needed) (op : UnaryOp) :
    IsOperand (op.kind :: ks) (.unary op e) (needed + 1) := by
  intro room rest hrest
  cases room with
  | zero => exact Takes.Gives.tooDeep.congr (iff_of_false id (by omega))
  | succ room =>
    have hread : (operand (level room) room).Gives (op.kind :: (ks ++ rest)) (needed ≤ room)
        (.unary op e) rest := by
      refine .choose ?_
      cases op <;> exact .after ((h hrest).reads.bind_pure _)
    exact hread.congr Nat.succ_le_succ_iff.symm

/-- The branches of a conditional are expressions, but the condition is an operation. -/
theorem StartsOperation.conditional {cs ys ns : List Kind} {condition yes no : Expr}
    {turns c y : Nat} (hcondition : StartsOperation 1 cs condition turns c)
    (hyes : IsExpression ys yes y) (hno : IsExpression ns no n) (hys : .arrow ∉ ys)
    (hns : .arrow ∉ ns) : IsExpression (cs ++ .question :: (ys ++ .colon :: ns))
      (.conditional condition yes no) (max c (max (y + 1) (n + 1))) := by
  intro room rest hrest
  cases room with
  | zero => exact Takes.Gives.tooDeep.congr (iff_of_false id (by omega))
  | succ room =>
    have harrow : .arrow ∉ ns ++ rest := by simp [hns, hrest.arrow]
    have hcolon : Follows 0 (.colon :: (ns ++ rest)) := .cons (by decide) (by decide) harrow
    have hquestion : Follows 1 (.question :: (ys ++ .colon :: (ns ++ rest))) :=
      .cons (by decide) (by decide) (by simpa [hys] using harrow)
    -- The loop over operators ends at the question mark.
    have hend : (operators room 0 (condition, turns)).Gives
        (.question :: (ys ++ .colon :: (ns ++ rest))) True (condition, turns) _ :=
      .repeat_of_none rfl
    have hread : (Script.conditional (level room) room).Gives
        (cs ++ .question :: (ys ++ .colon :: (ns ++ rest)))
        ((c ≤ room ∧ True) ∧ True ∧ y + 1 ≤ room ∧ True ∧ n + 1 ≤ room)
        (.conditional condition yes no) rest :=
      (hcondition (by decide) hquestion hend).andThen fun _ => gives_accept.bind fun _ =>
        (hyes hcolon).reads.bind fun _ => (gives_expect _).reads.bind fun _ =>
          (hno hrest).reads.bind_pure _
    rw [List.append_assoc, List.cons_append, List.append_assoc, List.cons_append]
    refine hread.congr ?_
    rw [and_true, true_and, true_and]
    omega

/-- What a single token decides how to read begins a chain, with no turn of the loop taken. -/
theorem StartsChain.of_primary (q : Nat → Reads Expr) {needed : Nat} (hbang : k ≠ .bang)
    (hminus : k ≠ .minus) (harrow : .arrow ∉ k :: ks)
    (hprimary : ∀ room ts, startsArrow ts = false → (ts.headD ⟨.eof, 0⟩).kind = k →
      primary (level room) ts = Takes.after (q room) ts)
    (hread : ∀ room rest, .arrow ∉ rest → (q room).Gives (ks ++ rest) (needed ≤ room + 1) e rest) :
    StartsChain (k :: ks) e 0 needed := by
  intro room rest rest' Q s hrest hloop
  have hall : .arrow ∉ k :: (ks ++ rest) := by
    rw [← List.cons_append, List.mem_append]
    exact not_or_intro harrow hrest
  -- Without an arrow ahead, the first token decides.
  have hfirst : (primary (level room)).Gives (k :: (ks ++ rest)) (needed ≤ room + 1) e rest := by
    intro ts hts
    rw [hprimary room ts (startsArrow_eq_false (hts ▸ hall)) (by rw [kind_headD, hts]; rfl)]
    exact Takes.Gives.after (hread room rest hrest) ts hts
  change (operand (level room) room).Gives _ _ _ _
  refine .choose ?_
  rw [List.cons_append, List.headD_cons]
  split
  · exact absurd rfl hbang
  · exact absurd rfl hminus
  · exact hfirst.andThen fun _ => hloop.bind_pure Prod.fst

/-- An expression in parentheses begins a chain. -/
theorem IsExpression.startsChain {needed : Nat} (h : IsExpression ks e needed)
    (harrow : .arrow ∉ ks) :
    StartsChain (.openParen :: (ks ++ [.closeParen])) e 0 (needed + 2) := by
  let inner (room : Nat) : Reads Expr := do
    let e ← (level room).expression.reads
    (expect .closeParen "')'").reads
    pure e
  refine .of_primary inner (by decide) (by decide) (by simp [harrow]) (fun room ts hno hk => ?_)
    fun room rest hrest => ?_
  · rw [primary, if_neg (by simp [hno]), Takes.choose, hk]
  · have hclose : Follows 0 (.closeParen :: rest) := .cons (by decide) (by decide) hrest
    have hread : (inner room).Gives (ks ++ .closeParen :: rest) (needed + 1 ≤ room ∧ True ∧ True) e
        rest :=
      (h hclose).reads.bind fun _ => (gives_expect _).reads.bind fun _ => .pure
    rw [List.append_assoc]
    exact hread.congr (by rw [and_true, and_true, ← Nat.succ_le_succ_iff])

/-- A call or an access goes on with a chain. -/
theorem StartsChain.extend {ls : List Kind} {e' : Expr} {links needed : Nat}
    {p : Nat → Reads (Expr × Nat)} (h : StartsChain ls e links needed) (harrow : .arrow ∉ k :: ks)
    (hk : ∀ room, postfixPart (level room) room (e, links) k =
      postfixPart.guarded room (e, links) (p room))
    (hread : ∀ room rest, .arrow ∉ rest →
      (p room).Gives (ks ++ rest) (m ≤ room) (e', links + 1) rest) :
    StartsChain (ls ++ k :: ks) e' (links + 1) (max needed (max (links + 3) (m + 1))) := by
  intro room rest rest' Q s hrest hloop
  have hafter : .arrow ∉ k :: (ks ++ rest) := by
    rw [← List.cons_append, List.mem_append]
    exact not_or_intro harrow hrest
  have hturn : (postfixes room (e, links)).Gives (k :: (ks ++ rest))
      ((links + 2 ≤ room ∧ m ≤ room) ∧ Q) s rest' :=
    gives_postfixes_cons (hk room) (hread room rest hrest) fun _ => hloop
  rw [List.append_assoc, List.cons_append]
  refine (h hafter hturn).congr ?_
  rw [← and_assoc]
  refine and_congr_left fun _ => ?_
  omega

/-! ### Lists -/

section

variable {α : Type} {item : Takes α} {a : α} {close : Kind} {what : String} {before : List α}

/-- Takes an item and the token behind it, which is a comma or closes the list. -/
def itemPart (item : Takes α) (close : Kind) (what : String) (before : List α) :
    Takes (List α ⊕ List α) :=
  item.andThen fun a => do
    if ← accept .comma then pure (.inl (a :: before))
    else
      (expect close what).reads
      pure (.inr (a :: before).reverse)

theorem gives_itemPart_comma (h : item.Gives ks P a (.comma :: rest)) :
    (itemPart item close what before).Gives ks P (.inl (a :: before)) rest :=
  Takes.Gives.congr (h.andThen fun _ => gives_accept.bind fun _ => .pure) (by simp)

theorem gives_itemPart_close (hclose : close ≠ .comma) (h : item.Gives ks P a (close :: rest)) :
    (itemPart item close what before).Gives ks P (.inr (a :: before).reverse) rest :=
  have haccept : (accept .comma).Gives (close :: rest) True false (close :: rest) :=
    gives_accept_of_ne hclose
  Takes.Gives.congr (h.andThen fun _ => haccept.bind fun _ => (gives_expect what).reads.bind_pure _)
    (by simp)

end

end Polyglot.Script
