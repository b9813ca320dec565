import Polyglot.Fault
import Polyglot.Request
import Polyglot.Text.Integer

/-!
# Binding arguments to positions

The key of an argument ends in `K` and the number of its position; before that there may be the name
of the function. Arguments are put in the order of their positions, and no two may have the same.
-/

namespace Polyglot.Request

/-- The largest position. -/
def maxPosition : Nat := 0xFFFFFFFF

/-- The position in a key that is `K` and decimal digits. -/
def localPosition? : List Char → Option Nat
  | 'K' :: digits => (Text.readDigits digits).filter (· ≤ maxPosition)
  | _ => none

/-- What follows the first list at the start of the second. -/
def afterPrefix? : List Char → List Char → Option (List Char)
  | [], rest => some rest
  | c :: cs, d :: ds => if c = d then afterPrefix? cs ds else none
  | _ :: _, [] => none

/-- The position that a key is for, with or without the name of the function. -/
def position? (name key : String) : Option Nat :=
  ((afterPrefix? name.toList key.toList).bind localPosition?).or (localPosition? key.toList)

/-- An argument at its position, with its key. -/
structure Bound where
  /-- The position. -/
  position : Nat
  /-- The key. -/
  key : String
  /-- The value. -/
  value : Json

/-- The fault of a key that tells no position. -/
def strayKey (name key : String) : Fault :=
  .requestShape ("Argument key " ++ key ++ " is neither " ++ name ++ "K<n> nor K<n>.")

/-- The fault of two keys for one position. -/
def rivalKeys (first second : String) (position : Nat) : Fault :=
  .competingKeys ("Function call supplies competing keys " ++ first ++ " and " ++ second ++
    " for argument " ++ toString position ++ ".")

/-- Puts an argument among others that ascend; two at one position are a fault. -/
def place (arg : Bound) : List Bound → Except Fault (List Bound)
  | [] => .ok [arg]
  | other :: rest =>
    if arg.position < other.position then .ok (arg :: other :: rest)
    else if arg.position = other.position then
      .error (rivalKeys other.key arg.key arg.position)
    else (place arg rest).map (other :: ·)

/-- Puts the argument of a key among others. -/
def bindKey (name : String) (bound : List Bound) (argument : String × Json) :
    Except Fault (List Bound) :=
  match position? name argument.1 with
  | none => .error (strayKey name argument.1)
  | some position => place ⟨position, argument.1, argument.2⟩ bound

/-- The values of the arguments of a function, in the order of their positions. -/
def bind (name : String) (arguments : Json.Fields Json) : Except Fault (List Json) :=
  (arguments.foldlM (bindKey name) []).map fun bound => bound.map (·.value)

end Polyglot.Request
