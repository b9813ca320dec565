import Polyglot.Shell.Format
import Polyglot.Text.Blank
import Polyglot.Text.Integer

/-!
# Commands that the shell knows

Each takes its arguments, acts on the state and the streams, and leaves its status.
-/

namespace Polyglot.Shell.Builtin

open Polyglot.Text (Raw)

/-- Leaves the status of a truth value. -/
def succeedIf (b : Bool) : Run Unit := Run.setStatus (if b then 0 else 1)

/-- The text of an argument; octets that are no text are left out. -/
def textOf (r : Raw) : String := String.ofList (r.filterMap id)

/-! ### Reading -/

/-- The largest number of lines that are read at once. -/
def maxLines : Nat := 1000000

/-- The characters of a line for `read`, each with whether it was escaped; and whether the line goes on
after a backslash at its end. -/
def unescapeLine : Raw → List (Option Char × Bool) × Bool
  | [] => ([], false)
  | [some '\\'] => ([], false)
  | some '\\' :: some '\n' :: _ => ([], true)
  | some '\\' :: c :: rest =>
    let (more, goesOn) := unescapeLine rest
    ((c, true) :: more, goesOn)
  | some '\n' :: _ => ([], false)
  | c :: rest =>
    let (more, goesOn) := unescapeLine rest
    ((c, false) :: more, goesOn)

/-- Reads a line for `read`: its characters, and whether it ended in a newline. -/
def readInput (raw : Bool) : (fuel : Nat) → Run (List (Option Char × Bool) × Bool)
  | 0 => pure ([], false)
  | fuel + 1 => do
    let line ← Run.readLine
    let ended := line.getLast? = some (some '\n')
    if raw then
      pure ((line.filter (· ≠ some '\n')).map (·, false), ended)
    else
      let (chars, goesOn) := unescapeLine line
      if goesOn then
        let (more, ended) ← readInput raw fuel
        pure (chars ++ more, ended)
      else pure (chars, ended)

/-- Whether a character separates fields. -/
def separates (separators : List Char) (c : Option Char × Bool) : Bool :=
  !c.2 && c.1.any separators.contains

/-- Whether a character is a blank that separates fields. -/
def isSpace (separators : List Char) (c : Option Char × Bool) : Bool :=
  separates separators c && c.1.any Char.isWhitespace

/-- Characters without the separating blanks they end with. -/
def dropSpacesAtEnd (separators : List Char) (cs : List (Option Char × Bool)) :
    List (Option Char × Bool) :=
  (cs.reverse.dropWhile (isSpace separators)).reverse

/-- Sets variables to the fields of a line, the last one to all that is left. -/
def assignFields (separators : List Char) : List String → List (Option Char × Bool) → Run Unit
  | [], _ => pure ()
  | [name], cs => do
    let cs := dropSpacesAtEnd separators (cs.dropWhile (isSpace separators))
    Run.setVariable name (cs.map (·.1))
  | name :: names, cs => do
    let cs := cs.dropWhile (isSpace separators)
    let field := cs.takeWhile fun c => !separates separators c
    let rest := (cs.drop field.length).dropWhile (isSpace separators)
    let rest := match cs.drop field.length, rest with
      | c :: _, d :: more => if !isSpace separators c then (cs.drop (field.length + 1))
        else if separates separators d then more else rest
      | _, rest => rest
    Run.setVariable name (field.map (·.1))
    assignFields separators names rest

/-- The command `read`. -/
def read (arguments : List Raw) : Run Unit := do
  let raw := arguments.any (textOf · = "-r")
  let names := (arguments.map textOf).filter fun a => a.toList.head? ≠ some '-'
  if names.isEmpty then
    Run.complain "read: arg count"
    Run.setStatus 2
  else
    let (chars, ended) ← readInput raw maxLines
    assignFields (← Run.separators) names chars
    succeedIf ended

/-! ### Tests -/

/-- The operators on integers. -/
def comparison? (op : String) : Option (Int → Int → Bool) :=
  match op with
  | "-eq" => some fun a b => a == b
  | "-ne" => some fun a b => a != b
  | "-lt" => some fun a b => a < b
  | "-le" => some fun a b => a ≤ b
  | "-gt" => some fun a b => a > b
  | "-ge" => some fun a b => a ≥ b
  | _ => none

/-- The integer that an operand of a test writes in decimal digits, with blanks around it. -/
def operand? (r : Raw) : Option Int :=
  r.chars?.bind fun cs => Text.readInt Text.minInt64 Text.maxInt64 (Text.trimChars cs)

/-- The order of two texts. -/
def orderOf (a b : Raw) : Ordering := compare (textOf a) (textOf b)

/-- The value of a test with an operator before its operand. -/
def testOne? (files : FileTree) (op : String) (a : Raw) : Option Bool :=
  let file := (files.find (textOf a)).toOption
  match op with
  | "-n" => some (!a.isEmpty)
  | "-z" => some a.isEmpty
  | "-e" | "-r" => some file.isSome
  | "-w" => some file.isSome
  | "-d" => some (file = some .directory)
  | "-f" => some (file.any (· ≠ .directory))
  | "-s" => some (file.any fun f => f ≠ .text "")
  | "-x" => some (file.any fun f => match f with
      | .directory | .program _ => true
      | _ => false)
  | "-t" => some false
  | _ => none

/-- The value of a test with an operator between its operands; nothing inside if the operands do not
suit the operator. -/
def testTwo? (a : Raw) (op : String) (b : Raw) : Option (Option Bool) :=
  match op with
  | "=" => some (some (a == b))
  | "!=" => some (some (a != b))
  | "<" => some (some (orderOf a b).isLT)
  | ">" => some (some (orderOf a b).isGT)
  | op => (comparison? op).map fun holds => do pure (holds (← operand? a) (← operand? b))

/-- The value of a test. -/
def test? (files : FileTree) : (fuel : Nat) → List Raw → Option Bool
  | 0, _ => none
  | fuel + 1, arguments =>
    match arguments with
    | [] => some false
    | [a] => some (!a.isEmpty)
    | [a, b] =>
      if textOf a = "!" then some b.isEmpty else testOne? files (textOf a) b
    | [a, op, b] =>
      if let some r := testTwo? a (textOf op) b then r
      else if textOf op = "-a" then some (!a.isEmpty && !b.isEmpty)
      else if textOf op = "-o" then some (!a.isEmpty || !b.isEmpty)
      else if textOf a = "!" then (test? files fuel [op, b]).map (!·)
      else if textOf a = "(" && textOf b = ")" then test? files fuel [op]
      else none
    | a :: rest =>
      if textOf a = "!" then (test? files fuel rest).map (!·)
      else
        let before := arguments.takeWhile fun w => textOf w ≠ "-o"
        if before.length < arguments.length then do
          let left ← test? files fuel before
          let right ← test? files fuel (arguments.drop (before.length + 1))
          pure (left || right)
        else
          let before := arguments.takeWhile fun w => textOf w ≠ "-a"
          if before.length < arguments.length then do
            let left ← test? files fuel before
            let right ← test? files fuel (arguments.drop (before.length + 1))
            pure (left && right)
          else none

/-- The command `test`. -/
def test (arguments : List Raw) : Run Unit := do
  match test? (← get).files (arguments.length + 2) arguments with
  | some b => succeedIf b
  | none => Run.setStatus 2

/-- The command `[`, whose last argument closes it. -/
def bracket (arguments : List Raw) : Run Unit :=
  if arguments.getLast? = some [some ']'] then test arguments.dropLast else Run.setStatus 2

/-! ### Waiting -/

/-- The milliseconds that a unit of time has. -/
def unitMilliseconds? (c : List Char) : Option Nat :=
  match c with
  | [] => some 1000
  | ['s'] => some 1000
  | ['m'] => some 60000
  | ['h'] => some 3600000
  | ['d'] => some 86400000
  | _ => none

/-- The milliseconds that a time is, in seconds unless a unit follows. -/
def milliseconds? (cs : List Char) : Option Nat := do
  let whole := cs.takeWhile Char.isDigit
  let rest := cs.drop whole.length
  let (places, rest) := match rest with
    | '.' :: more => (more.takeWhile Char.isDigit, more.dropWhile Char.isDigit)
    | _ => ([], rest)
  if whole.isEmpty && places.isEmpty then none
  else
    let unit ← unitMilliseconds? rest
    pure (Format.number (whole ++ places) * unit / Nat.pow 10 places.length)

/-- The command `sleep`. -/
def sleep (arguments : List Raw) : Run Unit := do
  if arguments.any (textOf · = "infinity") then Run.ofSession .endless
  else
    match arguments.mapM fun a => milliseconds? (textOf a).toList with
    | some times => do
      Run.ofSession (.sleep (times.foldl (· + ·) 0) fun _ => .done ())
      succeedIf (!times.isEmpty)
    | none => Run.setStatus 1

/-! ### Text -/

/-- Writes the input line by line as it is read. -/
def copy : (fuel : Nat) → Run Unit
  | 0 => Run.ofSession .endless
  | fuel + 1 => do
    let line ← Run.readLine
    if line = [] then pure ()
    else
      Run.emit 1 line
      copy fuel

/-- The command `cat`. -/
def cat (arguments : List Raw) : Run Unit := do
  if arguments.isEmpty then
    copy maxLines
    Run.setStatus 0
  else
    let results ← arguments.mapM fun a => do
      if textOf a = "-" then
        copy maxLines
        pure true
      else
        match (← get).files.read (textOf a) with
        | .ok content => do
          Run.emit 1 (Raw.ofString content)
          pure true
        | .error _ => do
          Run.emit 2 (Raw.ofString ("cat: " ++ textOf a ++ ": No such file or directory\n"))
          pure false
    succeedIf (results.all id)

/-- Copies a number of lines. -/
def copyLines : Nat → Run Unit
  | 0 => pure ()
  | n + 1 => do
    let line ← Run.readLine
    if line = [] then pure ()
    else
      Run.emit 1 line
      copyLines n

/-- The number in arguments such as `-n 3`, `-n3` and `-3`. -/
def countOf (letter : Char) (arguments : List Raw) : Option Nat :=
  match arguments.map fun a => (textOf a).toList with
  | ['-', c] :: ds :: _ => if c = letter then Text.readDigits ds else none
  | ('-' :: c :: ds) :: _ =>
    if c = letter then Text.readDigits ds
    else if letter = 'n' then Text.readDigits (c :: ds)
    else none
  | _ => none

/-- The command `head`. -/
def head (arguments : List Raw) : Run Unit := do
  match countOf 'c' arguments with
  | some n => do
    let text := (← Run.readLines maxLines).flatten
    Run.emit 1 (text.take n)
  | none => copyLines ((countOf 'n' arguments).getD 10)
  Run.setStatus 0

/-- The command `tail`. -/
def tail (arguments : List Raw) : Run Unit := do
  let lines ← Run.readLines maxLines
  let from? := match arguments.map fun a => (textOf a).toList with
    | ['-', 'n'] :: ('+' :: ds) :: _ => Text.readDigits ds
    | ('-' :: 'n' :: '+' :: ds) :: _ => Text.readDigits ds
    | _ => none
  let skipped := match from? with
    | some n => n - 1
    | none => lines.length - (countOf 'n' arguments).getD 10
  Run.emit 1 (lines.drop skipped).flatten
  Run.setStatus 0

/-- The command `wc` with one option. -/
def count (arguments : List Raw) : Run Unit := do
  let text := (← Run.readLines maxLines).flatten
  let n := if arguments.any (textOf · = "-l") then text.count (some '\n')
    else Raw.size text
  Run.emit 1 (Raw.ofString (toString n ++ "\n"))
  Run.setStatus 0

/-- Writes the integers of a range. -/
def writeRange (last step : Int) : (fuel : Nat) → Int → Run Unit
  | 0, _ => pure ()
  | fuel + 1, n =>
    if (0 < step ∧ n ≤ last) ∨ (step < 0 ∧ last ≤ n) then do
      Run.emit 1 (Raw.ofString (toString n ++ "\n"))
      writeRange last step fuel (n + step)
    else pure ()

/-- The command `seq`. -/
def seq (arguments : List Raw) : Run Unit := do
  match arguments.map integerOf with
  | [last] => writeRange last 1 maxLines 1
  | [first, last] => writeRange last 1 maxLines first
  | [first, step, last] => writeRange last step maxLines first
  | _ => pure ()
  Run.setStatus 0

/-- The characters of a set of `tr`. -/
def expandSet : List Char → List Char
  | a :: '-' :: b :: rest =>
    (List.range (b.toNat + 1 - a.toNat)).map (fun n => Char.ofNat (a.toNat + n)) ++ expandSet rest
  | '\\' :: c :: rest => (Format.escapeOf? c).getD c :: expandSet rest
  | c :: rest => c :: expandSet rest
  | [] => []

/-- The command `tr`. -/
def translate (arguments : List Raw) : Run Unit := do
  let text := (← Run.readLines maxLines).flatten
  match arguments.map fun a => (textOf a).toList with
  | ['-', 'd'] :: set :: _ =>
    let set := expandSet set
    Run.emit 1 (text.filter fun c => !c.any set.contains)
  | source :: target :: _ =>
    let source := expandSet source
    let target := expandSet target
    let change (c : Char) : Char :=
      match source.idxOf? c with
      | some n => (target[n]?.or target.getLast?).getD c
      | none => c
    Run.emit 1 (text.map (Option.map change))
  | _ => pure ()
  Run.setStatus 0

/-! ### Variables -/

/-- Sets the variables in arguments of the form `name=value`. -/
def setAll : List Raw → Run Unit
  | [] => pure ()
  | a :: rest => do
    let name := a.takeWhile (· ≠ some '=')
    if name.length < a.length then Run.setVariable (textOf name) (a.drop (name.length + 1))
    setAll rest

/-- The command `unset`. -/
def unset (arguments : List Raw) : Run Unit := do
  let names := arguments.map textOf
  modify fun s => { s with vars := s.vars.filter fun v => !names.contains v.1 }
  Run.setStatus 0

/-- The command `env` and its like, for the variables that are asked for. -/
def printVariables (names : List Raw) : Run Unit := do
  let vars := (← get).vars
  match names with
  | [] =>
    Run.emit 1 (vars.map fun (name, value) =>
      Raw.ofString (name ++ "=") ++ value ++ [some '\n']).flatten
    Run.setStatus 0
  | name :: _ =>
    match vars.find? fun v => v.1 = textOf name with
    | some v => do
      Run.emit 1 (v.2 ++ [some '\n'])
      Run.setStatus 0
    | none => Run.setStatus 1

/-- The command `set`, which sets an option or gives the script new arguments. -/
def setArguments (arguments : List Raw) : Run Unit := do
  let words := arguments.map fun a => (textOf a).toList
  match words with
  | ['-', '-'] :: _ => modify fun s => { s with arguments := arguments.drop 1 }
  | ('-' :: letters) :: rest =>
    if letters.contains 'e' || rest = ["errexit".toList] then
      modify fun s => { s with stopsOnFailure := true }
  | ('+' :: letters) :: rest =>
    if letters.contains 'e' || rest = ["errexit".toList] then
      modify fun s => { s with stopsOnFailure := false }
  | [] => pure ()
  | _ => modify fun s => { s with arguments := arguments }
  Run.setStatus 0

/-- The command `local`, which hides variables until the function ends. -/
def makeLocal : List Raw → Run Unit
  | [] => Run.setStatus 0
  | a :: rest => do
    let name := textOf (a.takeWhile (· ≠ some '='))
    let value ← Run.valueOf? name
    modify fun s => { s with hidden := (name, value) :: s.hidden }
    setAll [a]
    makeLocal rest

/-- The command `trap`, as far as it says what is run when the shell ends. -/
def trap (arguments : List Raw) : Run Unit := do
  match arguments.map textOf with
  | action :: signals =>
    if signals.any fun s => s = "EXIT" || s = "0" then
      modify fun s => { s with atExit := if action = "-" then none else some action.toList }
  | [] => pure ()
  Run.setStatus 0

/-- The command `cd`. -/
def changeDirectory (arguments : List Raw) : Run Unit := do
  let path := (arguments.head?.map textOf).getD "/root"
  let files := (← get).files
  match files.find path, files.resolve path with
  | .ok .directory, .ok place => do
    modify fun s => { s with
      files := { current := place, files := (files.current, .directory) :: files.files } }
    Run.setStatus 0
  | _, _ => do
    Run.complain ("cd: can't cd to " ++ path)
    Run.setStatus 2

/-- The command `shift`. -/
def shift (arguments : List Raw) : Run Unit := do
  let n := (arguments.head?.map fun a => (integerOf a).toNat).getD 1
  let given := (← get).arguments
  if n ≤ given.length then
    modify fun s => { s with arguments := s.arguments.drop n }
    Run.setStatus 0
  else Run.setStatus 2

/-- The status that an argument gives, or the last one. -/
def statusOf (arguments : List Raw) : Run Unit := do
  match arguments with
  | a :: _ => Run.setStatus ((integerOf a) % 256).toNat
  | [] => pure ()

/-- The number of loops that an argument gives. -/
def loopsOf (arguments : List Raw) : Nat :=
  (arguments.head?.map fun a => (integerOf a).toNat).getD 1

/-- The command of a name that neither looks at commands nor at redirections; none if there is none. -/
def find? (name : String) : Option (List Raw → Run Unit) :=
  match name with
  | ":" | "true" | "umask" | "ulimit" | "hash" | "alias" => some fun _ => Run.setStatus 0
  | "trap" => some trap
  | "cd" => some changeDirectory
  | "false" => some fun _ => Run.setStatus 1
  | "echo" => some fun as => do
    Run.emit 1 (Format.echo as)
    Run.setStatus 0
  | "printf" => some fun as => do
    match if as.head?.any fun a => textOf a = "--" then as.drop 1 else as with
    | [] => do
      Run.complain "printf: usage: printf format [arg ...]"
      Run.setStatus 2
    | format :: as => do
      Run.emit 1 (Format.printf format as)
      Run.setStatus 0
  | "read" => some read
  | "test" => some test
  | "[" => some bracket
  | "sleep" => some sleep
  | "cat" => some cat
  | "head" => some head
  | "tail" => some tail
  | "wc" => some count
  | "seq" => some seq
  | "tr" => some translate
  | "pwd" => some fun _ => do
    Run.emit 1 (Raw.ofString ("/" ++ String.intercalate "/" (← get).files.current ++ "\n"))
    Run.setStatus 0
  | "export" | "readonly" => some fun as => do
    setAll as
    Run.setStatus 0
  | "local" => some makeLocal
  | "unset" => some unset
  | "env" | "printenv" => some printVariables
  | "set" => some setArguments
  | "shift" => some shift
  | "exit" => some fun as => do
    statusOf as
    throw .exit
  | "return" => some fun as => do
    statusOf as
    throw .return
  | "break" => some fun as => throw (.break (loopsOf as))
  | "continue" => some fun as => throw (.continue (loopsOf as))
  | "kill" => some fun _ => throw .kill
  | _ => none

end Polyglot.Shell.Builtin
