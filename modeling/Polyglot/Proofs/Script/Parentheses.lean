import Polyglot.Script.Tree.OfTokens

/-!
# Writing expressions

`Expr.render` writes an expression with parentheses just where they are needed: around an operand
that holds together less closely than the operator before or behind it asks for, where the right
operand of an operator has to hold together more closely than the left one.  `Expr.strength` says how
closely an expression holds together, and `Expr.room` how much nesting it takes to read what is
written.
-/

namespace Polyglot.Script

/-! ### Strength -/

/-- The sign that an operator is written with. -/
def UnaryOp.kind : UnaryOp → Kind
  | .not => .bang
  | .neg => .minus

/-- The sign that an operator is written with. -/
def BinaryOp.kind : BinaryOp → Kind
  | .add => .plus
  | .sub => .minus
  | .mul => .star
  | .div => .slash
  | .rem => .percent
  | .equal => .equal
  | .notEqual => .notEqual
  | .less => .less
  | .lessEqual => .lessEqual
  | .greater => .greater
  | .greaterEqual => .greaterEqual

/-- The sign that an operator is written with. -/
def LogicalOp.kind : LogicalOp → Kind
  | .and => .and
  | .or => .or

/-- The word or sign that a literal is written with. -/
def Literal.kind : Literal → Kind
  | .int n => .int n
  | .text s => .text s
  | .bool true => .true
  | .bool false => .false
  | .null => .null

/-- How closely an operator holds its operands together. -/
def BinaryOp.strength : BinaryOp → Nat
  | .equal | .notEqual => 3
  | .less | .lessEqual | .greater | .greaterEqual => 4
  | .add | .sub => 5
  | .mul | .div | .rem => 6

/-- How closely an operator holds its operands together. -/
def LogicalOp.strength : LogicalOp → Nat
  | .or => 1
  | .and => 2

/-- How closely an expression holds together: a conditional least, operators with two operands more,
then signs, and all others most. -/
def Expr.strength : Expr → Nat
  | .conditional _ _ _ => 0
  | .logical op _ _ => op.strength
  | .binary op _ _ => op.strength
  | .unary _ _ => 7
  | _ => 8

/-- Whether there is no function in an expression. -/
inductive Expr.IsPlain : Expr → Prop where
  /-- A literal. -/
  | literal (v : Literal) : IsPlain (.literal v)
  /-- A name. -/
  | name (s : String) : IsPlain (.name s)
  /-- A list. -/
  | array {items : List Expr} (h : ∀ e ∈ items, IsPlain e) : IsPlain (.array items)
  /-- A call. -/
  | call {callee : Expr} {arguments : List Expr} (hcallee : IsPlain callee)
    (h : ∀ e ∈ arguments, IsPlain e) : IsPlain (.call callee arguments)
  /-- An element. -/
  | index {target position : Expr} (htarget : IsPlain target) (hposition : IsPlain position) :
    IsPlain (.index target position)
  /-- A property. -/
  | member {target : Expr} (htarget : IsPlain target) (s : String) : IsPlain (.member target s)
  /-- A sign. -/
  | unary (op : UnaryOp) {operand : Expr} (h : IsPlain operand) : IsPlain (.unary op operand)
  /-- An operator. -/
  | binary (op : BinaryOp) {left right : Expr} (hleft : IsPlain left) (hright : IsPlain right) :
    IsPlain (.binary op left right)
  /-- A logical operator. -/
  | logical (op : LogicalOp) {left right : Expr} (hleft : IsPlain left) (hright : IsPlain right) :
    IsPlain (.logical op left right)
  /-- A conditional. -/
  | conditional {condition yes no : Expr} (hcondition : IsPlain condition) (hyes : IsPlain yes)
    (hno : IsPlain no) : IsPlain (.conditional condition yes no)

section

variable {e : Expr}

theorem BinaryOp.strength_pos (op : BinaryOp) : 0 < op.strength := by
  cases op <;> decide

theorem BinaryOp.strength_le (op : BinaryOp) : op.strength ≤ 6 := by
  cases op <;> decide

theorem LogicalOp.strength_pos (op : LogicalOp) : 0 < op.strength := by
  cases op <;> decide

theorem LogicalOp.strength_le (op : LogicalOp) : op.strength ≤ 6 := by
  cases op <;> decide

theorem Expr.strength_le (e : Expr) : e.strength ≤ 8 := by
  cases e with
  | logical op _ _ => exact Nat.le_trans op.strength_le (by decide)
  | binary op _ _ => exact Nat.le_trans op.strength_le (by decide)
  | _ => simp [Expr.strength]

end

/-! ### Tokens -/

/-- Puts parentheses around what holds together less closely than it has to. -/
def enclosed (lowest strength : Nat) (ks : List Kind) : List Kind :=
  if strength < lowest then .openParen :: (ks ++ [.closeParen]) else ks

/-- How closely the operand of a sign has to hold together.  A sign behind a sign needs no
parentheses; it gets them if asked for. -/
def signLimit (apart : Bool) : Nat := if apart then 8 else 7

mutual

/-- The tokens that an expression is written with. -/
def Expr.render (apart : Bool) : Expr → List Kind
  | .literal v => [v.kind]
  | .name s => [.name s]
  | .array items => .openBracket :: (Expr.renderAll apart items ++ [.closeBracket])
  | .call callee arguments => enclosed 8 callee.strength (callee.render apart) ++
      .openParen :: (Expr.renderAll apart arguments ++ [.closeParen])
  | .index target position => enclosed 8 target.strength (target.render apart) ++
      .openBracket :: (position.render apart ++ [.closeBracket])
  | .member target s => enclosed 8 target.strength (target.render apart) ++ [.dot, .name s]
  | .unary op operand =>
      op.kind :: enclosed (signLimit apart) operand.strength (operand.render apart)
  -- Operators of one strength associate to the left, so the right operand has to be stronger.
  | .binary op left right => enclosed op.strength left.strength (left.render apart) ++
      op.kind :: enclosed (op.strength + 1) right.strength (right.render apart)
  | .logical op left right => enclosed op.strength left.strength (left.render apart) ++
      op.kind :: enclosed (op.strength + 1) right.strength (right.render apart)
  | .conditional condition yes no => enclosed 1 condition.strength (condition.render apart) ++
      .question :: (yes.render apart ++ .colon :: no.render apart)
  | .function _ => []

/-- The tokens that several expressions are written with, and commas between them. -/
def Expr.renderAll (apart : Bool) : List Expr → List Kind
  | [] => []
  | [e] => e.render apart
  | e :: f :: es => e.render apart ++ .comma :: Expr.renderAll apart (f :: es)

end

/-! ### Nesting -/

/-- How many calls and accesses in a row end an expression. -/
def Expr.links : Expr → Nat
  | .call callee _ => callee.links + 1
  | .index target _ => target.links + 1
  | .member target _ => target.links + 1
  | _ => 0

/-- How many operators of what may be put in parentheses follow one another outside of them. -/
def enclosedTurns (lowest strength turns : Nat) : Nat :=
  if strength < lowest then 0 else turns

/-- How many operators follow one another in an expression, from its first operand on. -/
def Expr.turns : Expr → Nat
  | .logical op left _ => enclosedTurns op.strength left.strength left.turns + 1
  | .binary op left _ => enclosedTurns op.strength left.strength left.turns + 1
  | _ => 0

/-- How much nesting it takes to read what may be put in parentheses. -/
def enclosedRoom (lowest strength room : Nat) : Nat :=
  if strength < lowest then room + 2 else room

mutual

/-- How much nesting it takes to read an expression, besides the expression itself. -/
def Expr.room (apart : Bool) : Expr → Nat
  | .literal _ => 1
  | .name _ => 1
  | .array items => Expr.roomAll apart items + 1
  -- The loop over calls and accesses runs one level further in, where it needs room for one turn more
  -- than it takes.
  | .call callee arguments => max (enclosedRoom 8 callee.strength (callee.room apart))
      (max (callee.links + 3) (Expr.roomAll apart arguments + 1))
  | .index target position => max (enclosedRoom 8 target.strength (target.room apart))
      (max (target.links + 3) (position.room apart + 2))
  | .member target _ => max (enclosedRoom 8 target.strength (target.room apart)) (target.links + 3)
  | .unary _ operand => enclosedRoom (signLimit apart) operand.strength (operand.room apart) + 1
  -- The loop over operators runs on the level itself.
  | .binary op left right => max (enclosedRoom op.strength left.strength (left.room apart))
      (max (enclosedTurns op.strength left.strength left.turns + 2)
        (enclosedRoom (op.strength + 1) right.strength (right.room apart)))
  | .logical op left right => max (enclosedRoom op.strength left.strength (left.room apart))
      (max (enclosedTurns op.strength left.strength left.turns + 2)
        (enclosedRoom (op.strength + 1) right.strength (right.room apart)))
  | .conditional condition yes no => max (enclosedRoom 1 condition.strength (condition.room apart))
      (max (yes.room apart + 1) (no.room apart + 1))
  | .function _ => 0

/-- How much nesting it takes to read several expressions. -/
def Expr.roomAll (apart : Bool) : List Expr → Nat
  | [] => 0
  | e :: es => max (e.room apart + 1) (Expr.roomAll apart es)

end

section

variable {ks : List Kind} {e : Expr} {lowest : Nat} {apart : Bool}

theorem Expr.links_eq_zero (h : e.strength < 8) : e.links = 0 := by
  cases e with
  | call _ _ => exact absurd h (by simp [Expr.strength])
  | index _ _ => exact absurd h (by simp [Expr.strength])
  | member _ _ => exact absurd h (by simp [Expr.strength])
  | _ => rfl

theorem Expr.turns_eq_zero (h : 7 ≤ e.strength) : e.turns = 0 := by
  cases e with
  | logical op _ _ => exact absurd (Nat.le_trans h op.strength_le) (by decide)
  | binary op _ _ => exact absurd (Nat.le_trans h op.strength_le) (by decide)
  | _ => rfl

/-- There is no expression without functions that is read without any nesting. -/
theorem Expr.IsPlain.room_pos (h : e.IsPlain) : 0 < e.room apart := by
  cases h <;> simp only [Expr.room] <;> omega

/-! ### Which tokens expressions have -/

theorem arrow_not_mem_enclosed {strength : Nat} (h : .arrow ∉ ks) :
    .arrow ∉ enclosed lowest strength ks := by
  rw [enclosed]
  split
  · simp [h]
  · exact h

theorem arrow_not_mem_renderAll {es : List Expr} (h : ∀ e ∈ es, .arrow ∉ e.render apart) :
    .arrow ∉ Expr.renderAll apart es := by
  induction es with
  | nil => simp [Expr.renderAll]
  | cons e es ih =>
    obtain ⟨he, hes⟩ := List.forall_mem_cons.mp h
    cases es with
    | nil => exact he
    | cons f es => simpa [Expr.renderAll, he] using ih hes

theorem UnaryOp.kind_ne_arrow (op : UnaryOp) : .arrow ≠ op.kind := by
  cases op <;> decide

theorem BinaryOp.kind_ne_arrow (op : BinaryOp) : .arrow ≠ op.kind := by
  cases op <;> decide

theorem LogicalOp.kind_ne_arrow (op : LogicalOp) : .arrow ≠ op.kind := by
  cases op <;> decide

theorem Literal.kind_ne_arrow (v : Literal) : .arrow ≠ v.kind := by
  rcases v with n | s | (_ | _) | _ <;> simp [Literal.kind]

/-- Expressions without functions are written without arrows. -/
theorem Expr.IsPlain.arrow_not_mem (h : e.IsPlain) : .arrow ∉ e.render apart := by
  induction h with
  | literal v => simp [Expr.render, v.kind_ne_arrow]
  | name s => simp [Expr.render]
  | array _ ih => simp [Expr.render, arrow_not_mem_renderAll ih]
  | call _ _ hcallee harguments =>
    simp [Expr.render, arrow_not_mem_enclosed hcallee, arrow_not_mem_renderAll harguments]
  | index _ _ htarget hposition => simp [Expr.render, arrow_not_mem_enclosed htarget, hposition]
  | member _ s htarget => simp [Expr.render, arrow_not_mem_enclosed htarget]
  | unary op _ ih => simp [Expr.render, op.kind_ne_arrow, arrow_not_mem_enclosed ih]
  | binary op _ _ hleft hright =>
    simp [Expr.render, op.kind_ne_arrow, arrow_not_mem_enclosed hleft,
      arrow_not_mem_enclosed hright]
  | logical op _ _ hleft hright =>
    simp [Expr.render, op.kind_ne_arrow, arrow_not_mem_enclosed hleft,
      arrow_not_mem_enclosed hright]
  | conditional _ _ _ hcondition hyes hno =>
    simp [Expr.render, arrow_not_mem_enclosed hcondition, hyes, hno]

/-- Whether a token may begin an expression. -/
def Kind.beginsExpr : Kind → Bool
  | .int _ | .text _ | .name _ | .true | .false | .null => .true
  | .openParen | .openBracket | .bang | .minus => .true
  | _ => .false

theorem beginsExpr_enclosed {strength : Nat}
    (h : ∀ rest, ((ks ++ rest).headD .eof).beginsExpr = true) (rest : List Kind) :
    ((enclosed lowest strength ks ++ rest).headD .eof).beginsExpr = true := by
  rw [enclosed]
  split
  · rfl
  · exact h rest

theorem Expr.IsPlain.beginsExpr (h : e.IsPlain) (rest : List Kind) :
    ((e.render apart ++ rest).headD .eof).beginsExpr = true := by
  induction h generalizing rest with
  | literal v => rcases v with n | s | (_ | _) | _ <;> rfl
  | name s => rfl
  | array _ _ => rfl
  | call _ _ ih _ => rw [Expr.render, List.append_assoc]; exact beginsExpr_enclosed ih _
  | index _ _ ih _ => rw [Expr.render, List.append_assoc]; exact beginsExpr_enclosed ih _
  | member _ s ih => rw [Expr.render, List.append_assoc]; exact beginsExpr_enclosed ih _
  | unary op _ _ => cases op <;> rfl
  | binary op _ _ ih _ => rw [Expr.render, List.append_assoc]; exact beginsExpr_enclosed ih _
  | logical op _ _ ih _ => rw [Expr.render, List.append_assoc]; exact beginsExpr_enclosed ih _
  | conditional _ _ _ ih _ _ => rw [Expr.render, List.append_assoc]; exact beginsExpr_enclosed ih _

theorem beginsExpr_renderAll (h : e.IsPlain) (es : List Expr) (rest : List Kind) :
    ((Expr.renderAll apart (e :: es) ++ rest).headD .eof).beginsExpr = true := by
  cases es with
  | nil => exact h.beginsExpr rest
  | cons f es =>
    rw [Expr.renderAll, List.append_assoc]
    exact h.beginsExpr _

end

end Polyglot.Script
