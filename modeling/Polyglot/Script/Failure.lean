import Polyglot.Fault
import Polyglot.Script.Datum
import Polyglot.Script.Token

/-!
# Failures of scripts

What can end a script without a value, and the messages for it.
-/

namespace Polyglot.Script

/-- What a script may do wrong while it runs. -/
inductive RuntimeError where
  /-- A name is not bound. -/
  | undefined (name : String)
  /-- A name is bound already in its scope. -/
  | redeclared (name : String)
  /-- A constant is given another value. -/
  | constantAssigned (name : String)
  /-- A `return` stands outside of all functions. -/
  | returnAtTopLevel
  /-- The function to be called is not defined. -/
  | missingFunction (name : String)
  /-- The function to be called is something else. -/
  | notTheFunction (name kind : String)
  /-- Something that is no function is called. -/
  | notCallable (kind : String)
  /-- Calls are nested too deeply. -/
  | tooManyCalls (limit : Nat)
  /-- An integer does not fit into 64 bits. -/
  | overflow
  /-- The divisor is zero. -/
  | divisionByZero
  /-- Something that is no integer is negated. -/
  | notNegatable (kind : String)
  /-- A function is called with too few or too many arguments. -/
  | arity (builtin : Builtin) (expected given : Nat)
  /-- A function is called with the wrong kinds of arguments. -/
  | badArguments (builtin : Builtin) (expected : String)
  /-- A text does not write an integer. -/
  | notAnInteger (text : String)
  /-- A list of pairs contains something else. -/
  | notAPair (kind : String)
  /-- An argument of a call has no native form. -/
  | notPassable (function : String) (cause : CodecError)
  /-- Something without elements is looped over. -/
  | notIterable (kind : String)
  /-- Something without elements is measured. -/
  | noLength (kind : String)
  /-- Something does not have a property. -/
  | noProperty (property kind : String)
  /-- Something is indexed in a way that it cannot be. -/
  | notIndexable (kind position : String)
  /-- Two values have no order. -/
  | notComparable (left right : String)
  /-- An operator does not apply to its operands. -/
  | badOperands (op : BinaryOp) (left right : String)
  deriving DecidableEq, Repr

/-- The message of a runtime error. -/
def RuntimeError.message : RuntimeError → String
  | .undefined name => "ReferenceError: " ++ name ++ " is not defined"
  | .redeclared name => "SyntaxError: identifier '" ++ name ++ "' has already been declared"
  | .constantAssigned name => "TypeError: assignment to constant variable '" ++ name ++ "'"
  | .returnAtTopLevel => "SyntaxError: illegal return statement at top level"
  | .missingFunction name => "ReferenceError: implementation does not define " ++ name
  | .notTheFunction name kind => "TypeError: " ++ name ++ " is a " ++ kind ++ ", not a function"
  | .notCallable kind => "TypeError: " ++ kind ++ " is not a function"
  | .tooManyCalls limit =>
    "RangeError: maximum call depth of " ++ toString limit ++ " exceeded"
  | .overflow => "RangeError: integer overflow"
  | .divisionByZero => "RangeError: division by zero"
  | .notNegatable kind => "TypeError: cannot negate a " ++ kind
  | .arity builtin expected given =>
    "TypeError: " ++ builtin.name ++ "() expects " ++ toString expected ++
      " argument(s), got " ++ toString given
  | .badArguments builtin expected => "TypeError: " ++ builtin.name ++ "() expects " ++ expected
  | .notAnInteger text => "TypeError: cannot convert " ++ Text.quoted text ++ " to an integer"
  | .notAPair kind => "TypeError: toMap() expects a list of pairs, found a " ++ kind
  | .notPassable function cause =>
    "TypeError: cannot pass argument to " ++ function ++ ": " ++ cause.message
  | .notIterable kind => "TypeError: " ++ kind ++ " is not iterable"
  | .noLength kind => "TypeError: a " ++ kind ++ " has no length"
  | .noProperty property kind =>
    "TypeError: cannot read property '" ++ property ++ "' of " ++ kind
  | .notIndexable kind position => "TypeError: cannot index a " ++ kind ++ " with a " ++ position
  | .notComparable left right => "TypeError: cannot compare " ++ left ++ " with " ++ right
  | .badOperands op left right =>
    "TypeError: unsupported operand types for " ++ op.display ++ ": " ++ left ++ " and " ++ right

/-- Why a running script ends without a value. -/
inductive Failure where
  /-- It did something wrong. -/
  | runtime (error : RuntimeError)
  /-- It threw a value, of which this is the text. -/
  | thrown (text : String)
  /-- A call to another function failed. -/
  | callback (fault : Fault)
  deriving DecidableEq, Repr

/-- The fault that a failure is to the outside. -/
def Failure.toFault : Failure → Fault
  | .runtime error => .execution error.message
  | .thrown text => .execution text
  | .callback fault => fault

end Polyglot.Script
