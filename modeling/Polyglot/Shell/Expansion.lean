import Polyglot.Shell.Arithmetic
import Polyglot.Shell.Pattern
import Polyglot.Shell.State

/-!
# Expanding words

The fields that a word stands for when its command is run. What expansions outside quotes yield is
split at the separators. How the output of a command is obtained is left to the caller.
-/

namespace Polyglot.Shell

open Polyglot.Text (Raw)

/-- What gives the output of a command from its source. -/
abbrev Substitute := List Char → Run Raw

/-- Fields under construction, the last one first. -/
structure Fields where
  /-- The complete ones. -/
  complete : List Raw
  /-- The one that goes on. -/
  current : Option Raw

namespace Fields

/-- Adds text that is not split. -/
def add (f : Fields) (text : Raw) : Fields := { f with current := some (f.current.getD [] ++ text) }

/-- Ends the current field. -/
def cut (f : Fields) : Fields :=
  match f.current with
  | some text => ⟨text :: f.complete, none⟩
  | none => f

/-- Adds text that is split at separators. -/
def addSplit (separators : List Char) (f : Fields) : Raw → Fields
  | [] => f
  | c :: rest =>
    match c with
    | some d =>
      if separators.contains d then
        if d.isWhitespace then addSplit separators f.cut rest
        else addSplit separators (f.add []).cut rest
      else addSplit separators (f.add [c]) rest
    | none => addSplit separators (f.add [c]) rest

/-- All fields, in order. -/
def toList (f : Fields) : List Raw := f.cut.complete.reverse

end Fields

/-- Texts with a blank between them. -/
def joinWith (separator : Raw) : List Raw → Raw
  | [] => []
  | [x] => x
  | x :: xs => x ++ separator ++ joinWith separator xs

/-- The value of a parameter. -/
def parameterValue? (name : String) : Run (Option Raw) := do
  let s ← get
  match name with
  | "?" => pure (some (Raw.ofString (toString s.status)))
  | "#" => pure (some (Raw.ofString (toString s.arguments.length)))
  | "@" => pure (if s.arguments.isEmpty then none else some (joinWith [some ' '] s.arguments))
  | "*" => do
    let separator := (← Run.separators).take 1
    pure (if s.arguments.isEmpty then none
      else some (joinWith (separator.map some) s.arguments))
  | "0" => pure (some (Raw.ofString s.name))
  | "$" => pure (some (Raw.ofString "4711"))
  | "!" | "-" => pure (some [])
  | _ =>
    match name.toNat? with
    | some n => pure (s.arguments[n - 1]?)
    | none => Run.valueOf? name

/-- The text without the newlines it ends with. -/
def dropNewlines (text : Raw) : Raw := (text.reverse.dropWhile (· = some '\n')).reverse

/-- The integer that a text writes; zero if it writes none. -/
def integerOf (text : Raw) : Int :=
  match text.chars? with
  | some cs =>
    let cs := cs.filter fun c => !c.isWhitespace
    (Text.readInt Text.minInt64 Text.maxInt64 cs).getD 0
  | none => 0

/-- What stands between the braces of a parameter: whether its length is asked for, its name, the
operator after it and the word of the operator. -/
structure ParameterSource where
  /-- Whether the length is asked for. -/
  length : Bool
  /-- The name. -/
  name : String
  /-- The operator. -/
  operator : String
  /-- The word. -/
  word : List Char

/-- The operators on parameters, longer ones first. -/
def parameterOperators : List String :=
  [":-", ":=", ":+", ":?", "##", "%%", "-", "=", "+", "?", "#", "%"]

/-- The name that a source begins with, and what follows it. -/
def splitName (cs : List Char) : List Char × List Char :=
  match cs with
  | c :: rest =>
    if isNameStart c then (c :: rest.takeWhile isNameChar, rest.dropWhile isNameChar)
    else if c.isDigit then (c :: rest.takeWhile Char.isDigit, rest.dropWhile Char.isDigit)
    else if isSpecial c then ([c], rest)
    else ([], cs)
  | [] => ([], [])

/-- Reads what stands between the braces of a parameter. -/
def ParameterSource.ofText? (cs : List Char) : Option ParameterSource :=
  let plain (length : Bool) (cs : List Char) : Option ParameterSource :=
    match splitName cs with
    | ([], _) => none
    | (name, []) => some ⟨length, String.ofList name, "", []⟩
    | (name, rest) =>
      if length then none
      else
        parameterOperators.findSome? fun op =>
          (after? op.toList rest).map fun word => ⟨false, String.ofList name, op, word⟩
  match cs with
  | '#' :: c :: rest => (plain true (c :: rest)).or (plain false cs)
  | cs => plain false cs

/-- The assigned variables of an arithmetic expression. -/
def assignAll : List (String × Int) → Run Unit
  | [] => pure ()
  | (name, value) :: rest => do
    assignAll rest
    Run.setVariable name (Raw.ofString (toString value))

/-- The value of an arithmetic expression, from its text. -/
def arithmetic (text : Raw) : Run Raw := do
  let vars := (← get).vars
  let look (name : String) : Int :=
    ((vars.find? fun v => v.1 = name).map fun v => integerOf v.2).getD 0
  match text.chars?.bind (Arithmetic.eval? look) with
  | some (value, changes) => do
    assignAll changes
    pure (Raw.ofString (toString value))
  | none => do
    Run.complain "arithmetic expression: expecting primary"
    Run.setStatus 2
    throw .exit

/-- Whether an operator takes an empty value for a missing one. -/
def treatsEmptyAsMissing (op : String) : Bool := op.toList.head? = some ':'

mutual

/-- The text of parts, without splitting it into fields. -/
def expandText (substitute : Substitute) : (fuel : Nat) → Word → Run Raw
  | 0, _ => pure []
  | _, [] => pure []
  | fuel + 1, part :: rest => do
    let text ← expandPart substitute fuel part
    let more ← expandText substitute fuel rest
    pure (text ++ more)

/-- The text of one part. -/
def expandPart (substitute : Substitute) : (fuel : Nat) → Part → Run Raw
  | 0, _ => pure []
  | fuel + 1, part =>
    match part with
    | .literal _ text => pure (text.map some)
    | .command _ source => do pure (dropNewlines (← substitute source))
    | .arithmetic _ source => do
      arithmetic (← expandText substitute fuel ((Word.ofDocument? source).getD []))
    | .parameter _ source =>
      match ParameterSource.ofText? source with
      | some p => expandParameter substitute fuel p
      | none => do
        Run.complain "Bad substitution"
        Run.setStatus 2
        throw .exit

/-- The pattern of a word; what is quoted stands for itself. -/
def expandPattern (substitute : Substitute) : (fuel : Nat) → Word → Run (List (Char × Bool))
  | 0, _ => pure []
  | _, [] => pure []
  | fuel + 1, part :: rest => do
    let quoted := match part with
      | .literal q _ | .command q _ | .arithmetic q _ | .parameter q _ => q
    let text ← expandPart substitute fuel part
    let more ← expandPattern substitute fuel rest
    pure ((text.filterMap id).map (·, quoted) ++ more)

/-- The value of a parameter after its operator. -/
def expandParameter (substitute : Substitute) : (fuel : Nat) → ParameterSource → Run Raw
  | 0, _ => pure []
  | fuel + 1, p => do
    let value ← parameterValue? p.name
    if p.length then pure (Raw.ofString (toString (Raw.size (value.getD []))))
    else
      let word := (Word.ofText? p.word).getD []
      let isThere := if treatsEmptyAsMissing p.operator then value.any (!·.isEmpty)
        else value.isSome
      match p.operator with
      | "" => pure (value.getD [])
      | ":-" | "-" => if isThere then pure (value.getD []) else expandText substitute fuel word
      | ":+" | "+" => if isThere then expandText substitute fuel word else pure []
      | ":=" | "=" => do
        if isThere then pure (value.getD [])
        else
          let text ← expandText substitute fuel word
          Run.setVariable p.name text
          pure text
      | ":?" | "?" => do
        if isThere then pure (value.getD [])
        else
          let text ← expandText substitute fuel word
          let message := if text = [] then "parameter not set" else (text.text?).getD ""
          Run.complain (p.name ++ ": " ++ message)
          Run.setStatus 2
          throw .exit
      | op => do
        let pattern := Glob.ofChars (← expandPattern substitute fuel word)
        let longest := op.length = 2
        if op.toList.head? = some '#' then pure (Glob.dropStart longest pattern (value.getD []))
        else pure (Glob.dropEnd longest pattern (value.getD []))

end

/-- How deep the parts of a word may be nested in one another. -/
def maxLevel : Nat := 10000

/-- Adds the fields of quoted arguments, one for each. -/
def addArguments (fields : Fields) : List Raw → Fields
  | [] => fields
  | [x] => fields.add x
  | x :: xs => addArguments (fields.add x).cut xs

/-- Whether a word is the quoted arguments and nothing else. -/
def isArguments (w : Word) : Bool :=
  (w.filter fun part => match part with
    | .literal true [] => false
    | _ => true).map (fun part => match part with
    | .parameter true ['@'] => true
    | _ => false) = [true]

/-- The fields of a word. -/
def expandFields (substitute : Substitute) (w : Word) : Run (List Raw) := do
  if isArguments w then pure (← get).arguments else
  let separators ← Run.separators
  let fields ← w.foldlM (fun (fields : Fields) part => do
    match part with
    | .parameter true ['@'] => do pure (addArguments fields (← get).arguments)
    | .literal true _ | .parameter true _ | .command true _ | .arithmetic true _ => do
      pure (fields.add (← expandPart substitute maxLevel part))
    | .literal false text => pure (fields.add (text.map some))
    | _ => do pure (fields.addSplit separators (← expandPart substitute maxLevel part)))
    ⟨[], none⟩
  pure fields.toList

/-- The fields of words. -/
def expandAll (substitute : Substitute) (ws : List Word) : Run (List Raw) := do
  pure (← ws.mapM (expandFields substitute)).flatten

end Polyglot.Shell
