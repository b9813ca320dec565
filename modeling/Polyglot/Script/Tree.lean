/-!
# Syntax trees of scripts

The expressions, statements and functions that a script is made of.
-/

namespace Polyglot.Script

/-- A literal. -/
inductive Literal where
  /-- An integer. -/
  | int (value : Nat)
  /-- A string. -/
  | text (value : String)
  /-- A truth value. -/
  | bool (value : Bool)
  /-- The null value. -/
  | null
  deriving DecidableEq, Repr

/-- An operator that evaluates both of its operands. -/
inductive BinaryOp where
  /-- Sum, or concatenation. -/
  | add
  /-- Difference. -/
  | sub
  /-- Product. -/
  | mul
  /-- Quotient. -/
  | div
  /-- Remainder. -/
  | rem
  /-- Equality. -/
  | equal
  /-- Inequality. -/
  | notEqual
  /-- Less than. -/
  | less
  /-- Less than or equal. -/
  | lessEqual
  /-- Greater than. -/
  | greater
  /-- Greater than or equal. -/
  | greaterEqual
  deriving DecidableEq, Repr

/-- The name of an operator in messages. -/
def BinaryOp.display : BinaryOp → String
  | .add => "Add"
  | .sub => "Sub"
  | .mul => "Mul"
  | .div => "Div"
  | .rem => "Rem"
  | .equal => "Eq"
  | .notEqual => "NotEq"
  | .less => "Lt"
  | .lessEqual => "LtEq"
  | .greater => "Gt"
  | .greaterEqual => "GtEq"

/-- An operator that may leave its right operand alone. -/
inductive LogicalOp where
  /-- Conjunction. -/
  | and
  /-- Disjunction. -/
  | or
  deriving DecidableEq, Repr

/-- An operator with one operand. -/
inductive UnaryOp where
  /-- Negation of a truth value. -/
  | not
  /-- Negation of a number. -/
  | neg
  deriving DecidableEq, Repr

mutual

/-- An expression. -/
inductive Expr where
  /-- A literal. -/
  | literal (value : Literal)
  /-- A list of expressions. -/
  | array (items : List Expr)
  /-- A name. -/
  | name (name : String)
  /-- A call. -/
  | call (callee : Expr) (arguments : List Expr)
  /-- An element, by its index or key. -/
  | index (target position : Expr)
  /-- A property, by its name. -/
  | member (target : Expr) (property : String)
  /-- An operator with one operand. -/
  | unary (op : UnaryOp) (operand : Expr)
  /-- An operator with two operands. -/
  | binary (op : BinaryOp) (left right : Expr)
  /-- An operator that may leave its right operand alone. -/
  | logical (op : LogicalOp) (left right : Expr)
  /-- One of two expressions, by a condition. -/
  | conditional (condition yes no : Expr)
  /-- A function. -/
  | function (function : Function)

/-- What a function does. -/
inductive Body where
  /-- Runs statements. -/
  | block (statements : List Stmt)
  /-- Yields the value of an expression. -/
  | expr (value : Expr)

/-- A function: its name, the names of its parameters, and what it does. -/
inductive Function where
  /-- Puts the parts together. -/
  | mk (name : String) (parameters : List String) (body : Body)

/-- A statement. -/
inductive Stmt where
  /-- Binds a name, to null if there is no value. -/
  | bind (name : String) (mutable : Bool) (value : Option Expr)
  /-- Gives a bound name another value. -/
  | assign (name : String) (value : Expr)
  /-- Ends the function, with null if there is no value. -/
  | return (value : Option Expr)
  /-- Runs one of two blocks, by a condition. -/
  | branch (condition : Expr) (yes : List Stmt) (no : Option (List Stmt))
  /-- Runs a block for each element. -/
  | each (name : String) (elements : Expr) (body : List Stmt)
  /-- Ends the evaluation with an error. -/
  | throw (value : Expr)
  /-- Binds a function to its name, for the whole block. -/
  | function (function : Function)
  /-- Runs a block. -/
  | block (statements : List Stmt)
  /-- Evaluates an expression. -/
  | expr (value : Expr)

end

instance : Inhabited Expr := ⟨.literal .null⟩

namespace Function

/-- The name of a function. -/
def name : Function → String
  | mk name _ _ => name

/-- The names of the parameters. -/
def parameters : Function → List String
  | mk _ parameters _ => parameters

/-- What the function does. -/
def body : Function → Body
  | mk _ _ body => body

/-- The name of a function that was given none. -/
def anonymous : String := "<anonymous>"

end Function

/-- A script: its statements. -/
abbrev Program := List Stmt

end Polyglot.Script
