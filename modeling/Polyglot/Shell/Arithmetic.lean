import Polyglot.Shell.Word
import Polyglot.Text.Integer

/-!
# Shell arithmetic

Expressions over integers of 64 bits, with the operators and precedences of C. Variables are looked up
by name, and an assignment is handed back to the caller.
-/

namespace Polyglot.Shell.Arithmetic

/-- A token of an expression. -/
inductive Symbol where
  /-- A number. -/
  | number (value : Int)
  /-- A variable. -/
  | name (text : String)
  /-- An operator or a parenthesis. -/
  | mark (text : String)
  deriving DecidableEq, Repr

/-- The operators, longer ones first. -/
def marks : List String :=
  ["<<=", ">>=", "<<", ">>", "<=", ">=", "==", "!=", "&&", "||", "+=", "-=", "*=", "/=", "%=", "&=",
    "|=", "^=", "+", "-", "*", "/", "%", "<", ">", "=", "!", "~", "&", "|", "^", "?", ":", "(", ")"]

/-- What follows a text at the start of another. -/
def dropText? : List Char → List Char → Option (List Char)
  | [], rest => some rest
  | _ :: _, [] => none
  | c :: cs, d :: ds => if c = d then dropText? cs ds else none

/-- How many integers of 64 bits there are. -/
def modulus : Nat := 0x10000000000000000

/-- The integer of 64 bits that a number is congruent to. -/
def wrap (n : Int) : Int := Int.bmod n modulus

/-- The number that digits write: hexadecimal after `0x`, octal after `0`, else decimal. -/
def numeral? : List Char → Option Int
  | '0' :: 'x' :: ds => (Text.readHexDigits ds).map (↑·)
  | '0' :: 'X' :: ds => (Text.readHexDigits ds).map (↑·)
  | ['0'] => some 0
  | '0' :: ds => (Text.readBase 8 (fun c => (Text.digitValue? c).filter (· < 8)) ds).map (↑·)
  | ds => (Text.readDigits ds).map (↑·)

/-- The tokens of an expression. -/
def symbols? : (fuel : Nat) → List Char → Option (List Symbol)
  | 0, _ => none
  | fuel + 1, cs =>
    match cs with
    | [] => some []
    | c :: rest =>
      if c.isWhitespace then symbols? fuel rest
      else if c.isDigit then do
        let n ← numeral? (cs.takeWhile Char.isAlphanum)
        let more ← symbols? fuel (cs.dropWhile Char.isAlphanum)
        pure (.number (wrap n) :: more)
      else if isNameStart c then do
        let more ← symbols? fuel (cs.dropWhile isNameChar)
        pure (.name (String.ofList (cs.takeWhile isNameChar)) :: more)
      else do
        let (m, rest) ← marks.findSome? fun m => (dropText? m.toList cs).map fun rest => (m, rest)
        let more ← symbols? fuel rest
        pure (.mark m :: more)

/-- The variables that an expression sees and has set. -/
abbrev Variables := String → Int


/-- How tight a binary operator binds. -/
def precedence? : String → Option Nat
  | "*" | "/" | "%" => some 10
  | "+" | "-" => some 9
  | "<<" | ">>" => some 8
  | "<" | ">" | "<=" | ">=" => some 7
  | "==" | "!=" => some 6
  | "&" => some 5
  | "^" => some 4
  | "|" => some 3
  | "&&" => some 2
  | "||" => some 1
  | _ => none

/-- The integer of a truth value. -/
def ofBool (b : Bool) : Int := if b then 1 else 0

/-- The natural number whose bits an integer has. -/
def bits (n : Int) : Nat := (n % modulus).toNat

/-- The value of a binary operator; none for a division by zero. -/
def operate? (op : String) (a b : Int) : Option Int :=
  match op with
  | "*" => some (wrap (a * b))
  | "/" => if b = 0 then none else some (wrap (a.tdiv b))
  | "%" => if b = 0 then none else some (wrap (a.tmod b))
  | "+" => some (wrap (a + b))
  | "-" => some (wrap (a - b))
  | "<<" => some (wrap (a * Nat.pow 2 (bits b % 64)))
  | ">>" => some (a / Nat.pow 2 (bits b % 64))
  | "<" => some (ofBool (a < b))
  | ">" => some (ofBool (a > b))
  | "<=" => some (ofBool (a ≤ b))
  | ">=" => some (ofBool (a ≥ b))
  | "==" => some (ofBool (a == b))
  | "!=" => some (ofBool (a != b))
  | "&" => some (wrap (bits a &&& bits b))
  | "^" => some (wrap (bits a ^^^ bits b))
  | "|" => some (wrap (bits a ||| bits b))
  | "&&" => some (ofBool (a ≠ 0 && b ≠ 0))
  | "||" => some (ofBool (a ≠ 0 || b ≠ 0))
  | _ => none

/-- What has been computed: the value, the variables set so far with their values, and the tokens that
are left. -/
structure Result where
  /-- The value. -/
  value : Int
  /-- What has been set, the last first. -/
  set : List (String × Int)
  /-- The tokens that are left. -/
  rest : List Symbol

/-- The value of a variable after some have been set. -/
def valueOf (vars : Variables) (set : List (String × Int)) (name : String) : Int :=
  ((set.find? fun entry => entry.1 = name).map (·.2)).getD (vars name)

/-- The operator that an assignment applies before it sets the variable. -/
def assignmentOperator? (mark : String) : Option (Option String) :=
  if mark = "=" then some none
  else if ["+=", "-=", "*=", "/=", "%=", "&=", "|=", "^=", "<<=", ">>="].contains mark then
    some (some (String.ofList mark.toList.dropLast))
  else none

mutual

/-- The value of an expression that may assign. -/
def assignment? (vars : Variables) : (fuel : Nat) → List (String × Int) → List Symbol → Option Result
  | 0, _, _ => none
  | fuel + 1, set, ts =>
    match ts with
    | .name x :: .mark m :: rest =>
      match assignmentOperator? m with
      | some op => do
        let r ← assignment? vars fuel set rest
        let value ← match op with
          | some op => operate? op (valueOf vars r.set x) r.value
          | none => some r.value
        pure ⟨value, (x, value) :: r.set, r.rest⟩
      | none => conditional? vars fuel set ts
    | ts => conditional? vars fuel set ts

/-- The value of a conditional expression. -/
def conditional? (vars : Variables) : (fuel : Nat) → List (String × Int) → List Symbol → Option Result
  | 0, _, _ => none
  | fuel + 1, set, ts => do
    let c ← binary? vars fuel 1 set ts
    match c.rest with
    | .mark "?" :: rest =>
      let yes ← assignment? vars fuel c.set rest
      match yes.rest with
      | .mark ":" :: rest =>
        let no ← conditional? vars fuel c.set rest
        pure (if c.value ≠ 0 then ⟨yes.value, yes.set, no.rest⟩ else no)
      | _ => none
    | _ => pure c

/-- The value of operators that bind at least as tight as given. -/
def binary? (vars : Variables) :
    (fuel : Nat) → (least : Nat) → List (String × Int) → List Symbol → Option Result
  | 0, _, _, _ => none
  | fuel + 1, least, set, ts => do
    let first ← unary? vars fuel set ts
    binaryRest? vars fuel least first

/-- The value after the operators that follow an operand. -/
def binaryRest? (vars : Variables) : (fuel : Nat) → (least : Nat) → Result → Option Result
  | 0, _, _ => none
  | fuel + 1, least, left =>
    match left.rest with
    | .mark op :: rest =>
      match precedence? op with
      | some p =>
        if least ≤ p then do
          let right ← binary? vars fuel (p + 1) left.set rest
          let value ← operate? op left.value right.value
          binaryRest? vars fuel least ⟨value, right.set, right.rest⟩
        else some left
      | none => some left
    | _ => some left

/-- The value of an operand. -/
def unary? (vars : Variables) : (fuel : Nat) → List (String × Int) → List Symbol → Option Result
  | 0, _, _ => none
  | fuel + 1, set, ts =>
    match ts with
    | .number n :: rest => some ⟨n, set, rest⟩
    | .name x :: rest => some ⟨valueOf vars set x, set, rest⟩
    | .mark "-" :: rest => (unary? vars fuel set rest).map fun r => { r with value := wrap (-r.value) }
    | .mark "+" :: rest => unary? vars fuel set rest
    | .mark "!" :: rest =>
      (unary? vars fuel set rest).map fun r => { r with value := ofBool (r.value = 0) }
    | .mark "~" :: rest =>
      (unary? vars fuel set rest).map fun r => { r with value := wrap (-r.value - 1) }
    | .mark "(" :: rest => do
      let r ← assignment? vars fuel set rest
      match r.rest with
      | .mark ")" :: rest => pure { r with rest := rest }
      | _ => none
    | _ => none

end

/-- The value of an expression, and the variables that it sets, the last first. -/
def eval? (vars : Variables) (cs : List Char) : Option (Int × List (String × Int)) := do
  let ts ← symbols? (cs.length + 1) cs
  if ts.isEmpty then pure (0, [])
  else
    let r ← assignment? vars (16 * ts.length + 16) [] ts
    if r.rest.isEmpty then pure (r.value, r.set) else none

end Polyglot.Shell.Arithmetic
