import Polyglot.Script.Tree
import Polyglot.Script.Tree.Reading

/-!
# From tokens to trees

Statements, expressions and operands may contain one another. `Level` holds the readers for the
three, and `level` builds those of one level of nesting from those of the level inside it, down to
the level that allows no more nesting. So reading needs no recursion but that over the levels and
the loops over tokens.

Operators have six levels of precedence and associate to the left. A loop that wraps what it has
read, as operators and calls in a row do, counts its turns against the nesting that is left.
-/

namespace Polyglot.Script

/-- How deep statements, expressions and operands may be nested. -/
def maxLevel : Nat := 128

/-- The readers for what may be nested. -/
structure Level where
  /-- Takes a statement. -/
  statement : Takes Stmt
  /-- Takes an expression. -/
  expression : Takes Expr
  /-- Takes an operand with its signs in front and its calls and accesses behind. -/
  operand : Takes Expr

/-! ### Lists -/

/-- Takes items with commas between them, and the token that closes them. -/
def commaList {α : Type} (item : Takes α) (close : Kind) (what : String) : Takes (List α) :=
  Takes.iterate (fun before => item.andThen fun a => do
    if ← accept .comma then pure (.inl (a :: before))
    else
      (expect close what).reads
      pure (.inr (a :: before).reverse)) []

/-- Takes items with commas between them and the parenthesis that closes them, or just this. -/
def parenthesized {α : Type} (item : Takes α) (what : String) : Takes (List α) :=
  Takes.choose fun
    | .closeParen => Takes.after (pure [])
    | _ => commaList item .closeParen what

/-- Takes the parameters of a function, after the opening parenthesis. -/
def parameters : Takes (List String) :=
  parenthesized (expectName "parameter name") "')' after parameters"

/-- Takes the items of a list, after the opening bracket. There may be a comma after the last. -/
def arrayItems (item : Takes Expr) : Takes (List Expr) :=
  Takes.iterate (fun before => Takes.choose fun
    | .closeBracket => Takes.after (pure (.inr before.reverse))
    | _ => item.andThen fun a => do
      if ← accept .comma then pure (.inl (a :: before))
      else
        (expect .closeBracket "']' after array items").reads
        pure (.inr (a :: before).reverse)) []

/-- Takes a block in braces. -/
def block (inner : Level) : Takes (List Stmt) :=
  (expect .openBrace "'\x7b'").andThen fun _ => (Takes.iterate (fun before => Takes.choose fun
    | .closeBrace => Takes.after (pure (.inr before.reverse))
    | .eof => Takes.fail (.expected "'\x7d' before end of input")
    | _ => inner.statement.andThen fun s => pure (.inl (s :: before))) []).reads

/-- Takes a block in braces or a single statement. -/
def branch (inner : Level) : Takes (List Stmt) :=
  Takes.choose fun
    | .openBrace => block inner
    | _ => inner.statement.andThen fun s => pure [s]

/-! ### Functions -/

/-- Whether the tokens after an opening parenthesis are names and commas, the closing parenthesis
and an arrow. -/
def parametersThenArrow : List Token → Bool
  | [] => false
  | t :: rest =>
    match t.kind with
    | .name _ => parametersThenArrow rest
    | .comma => parametersThenArrow rest
    | .closeParen => (rest.head?.map (·.kind)) = some .arrow
    | _ => false

/-- Whether a function that is written with an arrow comes next. -/
def startsArrow : List Token → Bool
  | [] => false
  | t :: rest =>
    match t.kind with
    | .name _ => (rest.head?.map (·.kind)) = some .arrow
    | .openParen => parametersThenArrow rest
    | _ => false

/-- Takes a function that is written with an arrow. -/
def arrowFunction (inner : Level) : Takes Expr :=
  (Takes.choose fun
    | .openParen => Takes.after parameters.reads
    | _ => (expectName "parameter name").andThen fun name => pure [name]).andThen fun names => do
  (expect .arrow "'=>'").reads
  let body ← match ← Reads.peek with
    | .openBrace => do pure (Body.block (← (block inner).reads))
    | _ => do pure (Body.expr (← inner.expression.reads))
  pure (.function (.mk Function.anonymous names body))

/-- Takes the rest of a function after the word `function`; a name there is of no effect. -/
def functionExpression (inner : Level) : Reads Expr := do
  match ← Reads.peek with
  | .name _ => do let _ ← Takes.token.reads
  | _ => pure ()
  (expect .openParen "'(' after 'function'").reads
  let names ← parameters.reads
  let statements ← (block inner).reads
  pure (.function (.mk Function.anonymous names (.block statements)))

/-- Takes the rest of a function declaration after the word `function`. -/
def functionStatement (inner : Level) : Reads Function := do
  let name ← (expectName "function name").reads
  (expect .openParen "'(' after function name").reads
  let names ← parameters.reads
  let statements ← (block inner).reads
  pure (.mk name names (.block statements))

/-! ### Expressions -/

/-- Takes a literal, a name, a list, a function or an expression in parentheses. -/
def primary (inner : Level) : Takes Expr := fun ts =>
  if startsArrow ts then arrowFunction inner ts
  else
    (Takes.choose fun
      | .int n => Takes.after (pure (.literal (.int n)))
      | .text s => Takes.after (pure (.literal (.text s)))
      | .true => Takes.after (pure (.literal (.bool true)))
      | .false => Takes.after (pure (.literal (.bool false)))
      | .null => Takes.after (pure (.literal .null))
      | .name name => Takes.after (pure (.name name))
      | .openParen => Takes.after do
        let e ← inner.expression.reads
        (expect .closeParen "')'").reads
        pure e
      | .openBracket => Takes.after do pure (.array (← (arrayItems inner.expression).reads))
      | .function => Takes.after (functionExpression inner)
      | _ => Takes.fail .unexpectedToken) ts

/-- Takes the call or access that the first token begins, unless too much is nested. -/
def postfixPart (inner : Level) (room : Nat) (state : Expr × Nat) :
    Kind → Option (Takes (Expr × Nat))
  | .openParen => guarded do
    let arguments ← (parenthesized inner.expression "')' after arguments").reads
    pure (.call state.1 arguments, state.2 + 1)
  | .openBracket => guarded do
    let position ← inner.expression.reads
    (expect .closeBracket "']' after index").reads
    pure (.index state.1 position, state.2 + 1)
  | .dot => guarded do
    let property ← (expectName "property name after '.'").reads
    pure (.member state.1 property, state.2 + 1)
  | _ => none
where
  /-- Reads after the first token if there is room for one more turn. -/
  guarded (p : Reads (Expr × Nat)) : Option (Takes (Expr × Nat)) :=
    if room ≤ state.2 + 1 then some (Takes.fail .tooDeep) else some (Takes.after p)

/-- Takes an operand. -/
def operand (inner : Level) (room : Nat) : Takes Expr :=
  Takes.choose fun
    | .bang => Takes.after do pure (.unary .not (← inner.operand.reads))
    | .minus => Takes.after do pure (.unary .neg (← inner.operand.reads))
    | _ => (primary inner).andThen fun e => do
      let (e, _) ← Reads.repeat (postfixPart inner room) (e, 0)
      pure e

/-- The expression of an operator and its operands, and the level of precedence of the operator; the
higher one binds more closely. -/
def operator? : Kind → Option ((Expr → Expr → Expr) × Fin 6)
  | .or => some (.logical .or, 0)
  | .and => some (.logical .and, 1)
  | .equal => some (.binary .equal, 2)
  | .notEqual => some (.binary .notEqual, 2)
  | .less => some (.binary .less, 3)
  | .lessEqual => some (.binary .lessEqual, 3)
  | .greater => some (.binary .greater, 3)
  | .greaterEqual => some (.binary .greaterEqual, 3)
  | .plus => some (.binary .add, 4)
  | .minus => some (.binary .sub, 4)
  | .star => some (.binary .mul, 5)
  | .slash => some (.binary .div, 5)
  | .percent => some (.binary .rem, 5)
  | _ => none

/-- Takes operands with operators of the given level or higher ones between them. -/
def operation (inner : Level) (room lowest : Nat) : Takes Expr :=
  inner.operand.andThen fun first => do
    let (e, _) ← Reads.repeat (fun (left, turns) kind =>
      match operator? kind with
      | none => none
      | some (build, level) =>
        if _h : level.val < lowest then none
        else if room ≤ turns + 1 then some (Takes.fail .tooDeep)
        else some (Takes.after do
          let right ← (operation inner room (level.val + 1)).reads
          pure (build left right, turns + 1))) (first, 0)
    pure e
termination_by 6 - lowest
decreasing_by have := level.isLt; omega

/-- Takes an expression, which may be one of two by a condition. -/
def conditional (inner : Level) (room : Nat) : Takes Expr :=
  (operation inner room 0).andThen fun condition => do
    if ← accept .question then
      let yes ← inner.expression.reads
      (expect .colon "':' in conditional expression").reads
      let no ← inner.expression.reads
      pure (.conditional condition yes no)
    else pure condition

/-! ### Statements -/

/-- Takes the semicolon after a statement if there is one. -/
def statementEnd : Reads Unit := do
  let _ ← accept .semicolon

/-- A value with the name that it is bound to, which a function without a name takes. -/
def named (name : String) : Expr → Expr
  | .function (.mk old names body) =>
    .function (.mk (if old = Function.anonymous then name else old) names body)
  | e => e

/-- Takes the rest of a binding after its first word. -/
def binding (inner : Level) (mutable : Bool) : Reads Stmt := do
  let name ← (expectName "binding name").reads
  let value ← (do
    if ← accept .assign then pure (some (named name (← inner.expression.reads)))
    else if mutable then pure none
    else Reads.fail .missingInitializer)
  statementEnd
  pure (.bind name mutable value)

/-- Takes the value of a `return`, unless the statement ends there. -/
def returnValue (inner : Level) : Reads (Option Expr) := do
  match ← Reads.peek with
  | .semicolon => pure none
  | .closeBrace => pure none
  | _ => do pure (some (← inner.expression.reads))

/-- The statement that tries conditions one after another. -/
def branches (cases : List (Expr × List Stmt)) (last : Expr × List Stmt)
    (no : Option (List Stmt)) : Stmt :=
  cases.foldr (fun (condition, yes) rest => .branch condition yes (some [rest]))
    (.branch last.1 last.2 no)

/-- Takes the rest of an `if` after this word, with all that follow it after an `else`. -/
def ifElse (inner : Level) : Takes Stmt :=
  Takes.iterate (fun before => (expect .openParen "'(' after 'if'").andThen fun _ => do
    let condition ← inner.expression.reads
    (expect .closeParen "')' after condition").reads
    let yes ← (branch inner).reads
    if ← accept .else then
      if ← accept .if then pure (.inl ((condition, yes) :: before))
      else
        let no ← (branch inner).reads
        pure (.inr (branches before.reverse (condition, yes) (some no)))
    else pure (.inr (branches before.reverse (condition, yes) none))) []

/-- Takes the rest of a loop after the word `for`. -/
def loopStatement (inner : Level) : Reads Stmt := do
  (expect .openParen "'(' after 'for'").reads
  if ← accept .const then pure ()
  else if ← accept .let then pure ()
  else Reads.fail (.expected "'const' or 'let' in for-of loop")
  let name ← (expectName "loop variable").reads
  (expect .of "'of' (only for-of loops are supported)").reads
  let elements ← inner.expression.reads
  (expect .closeParen "')' after for-of header").reads
  let body ← (branch inner).reads
  pure (.each name elements body)

/-- Takes an expression as a statement. -/
def expressionStatement (inner : Level) : Takes Stmt :=
  inner.expression.andThen fun e => do
    statementEnd
    pure (.expr e)

/-- Takes a name, the sign of assignment and a value; the value is changed by the given function. -/
def assignment (inner : Level) (name : String) (change : Expr → Expr) : Takes Stmt :=
  Takes.after do
    let _ ← Takes.token.reads
    let value ← inner.expression.reads
    statementEnd
    pure (.assign name (change value))

/-- Takes a statement. -/
def statement (inner : Level) : Takes Stmt :=
  Takes.chooseByTwo fun
    | .name name, .assign => assignment inner name id
    | .name name, .plusAssign => assignment inner name (.binary .add (.name name))
    | .function, _ => Takes.after do pure (.function (← functionStatement inner))
    | .const, _ => Takes.after (binding inner false)
    | .let, _ => Takes.after (binding inner true)
    | .return, _ => Takes.after do
      let value ← returnValue inner
      statementEnd
      pure (.return value)
    | .if, _ => Takes.after (ifElse inner).reads
    | .for, _ => Takes.after (loopStatement inner)
    | .throw, _ => Takes.after do
      let value ← inner.expression.reads
      statementEnd
      pure (.throw value)
    | .openBrace, _ => (block inner).andThen fun statements => pure (.block statements)
    | _, _ => expressionStatement inner

/-! ### Scripts -/

/-- The readers that may be nested as deep as the room that is left. -/
def level : (room : Nat) → Level
  | 0 => ⟨Takes.fail .tooDeep, Takes.fail .tooDeep, Takes.fail .tooDeep⟩
  | room + 1 =>
    let inner := level room
    ⟨statement inner, conditional inner room, operand inner room⟩

/-- Reads the statements up to the end. -/
def statements : Reads Program := do
  let before ← Reads.repeat (fun before kind =>
    if kind = .eof then none
    else some ((level maxLevel).statement.andThen fun s => pure (s :: before))) []
  pure before.reverse

/-- The script that tokens write. -/
def Program.ofTokens (ts : List Token) : Except LocatedMistake Program :=
  (statements ts).map (·.1)

end Polyglot.Script
