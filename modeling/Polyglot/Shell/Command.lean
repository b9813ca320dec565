import Polyglot.Shell.Scan

/-!
# Shell commands

The commands that tokens write: simple commands with assignments and redirections, pipelines, lists,
and the compound commands. The reader takes the tokens that a command needs and leaves the rest.
-/

namespace Polyglot.Shell

/-- A change of where a stream leads. -/
structure Redirection where
  /-- The number of the stream. -/
  stream : Nat
  /-- The operator. -/
  operator : String
  /-- The file, the stream or the document. -/
  target : Word

/-- A command. -/
inductive Command where
  /-- No command. -/
  | nothing
  /-- Assignments, and the words of a command to run with them, if there are any. -/
  | simple (assignments : List (String × Word)) (words : List Word)
  /-- A command whose streams are redirected. -/
  | redirected (body : Command) (redirections : List Redirection)
  /-- Two commands of which one reads what the other writes. -/
  | pipe (left right : Command)
  /-- A command whose status is turned round. -/
  | negate (body : Command)
  /-- Two commands one after the other. -/
  | seq (first second : Command)
  /-- A command, and one that follows if it succeeds. -/
  | both (first second : Command)
  /-- A command, and one that follows if it fails. -/
  | either (first second : Command)
  /-- A command that runs beside those after it. -/
  | background (body : Command)
  /-- One of two commands, as a third succeeds or fails. -/
  | branch (condition yes no : Command)
  /-- A command that is repeated while another succeeds, or until it does. -/
  | loop (untilTrue : Bool) (condition body : Command)
  /-- A command that is repeated for words, or for the arguments of the script. -/
  | each (name : String) (words : Option (List Word)) (body : Command)
  /-- The command of the first pattern that a word matches. -/
  | case (word : Word) (arms : List (List Word × Command))
  /-- A command that keeps its changes to itself. -/
  | subshell (body : Command)
  /-- The definition of a function. -/
  | function (name : String) (body : Command)

/-- The words that are not names of commands. -/
def reserved : List String :=
  ["then", "else", "elif", "fi", "do", "done", "esac", "\x7d", "in", "if", "while", "until", "for",
    "case", "\x7b", "!"]

namespace Command

/-- What is read from tokens. -/
abbrev Reader (α : Type) := List Token → Option (α × List Token)

/-- The tokens after newlines. -/
def skipNewlines : List Token → List Token
  | .operator "\n" :: ts => skipNewlines ts
  | ts => ts

/-- The tokens after a word that is not quoted. -/
def keyword? (text : String) : List Token → Option (List Token)
  | .word w :: ts => if plainText? w = some text then some ts else none
  | _ => none

/-- The tokens after an operator. -/
def operator? (text : String) : List Token → Option (List Token)
  | .operator op :: ts => if op = text then some ts else none
  | _ => none

/-- The reserved word that tokens begin with. -/
def reserved? : List Token → Option String
  | .word w :: _ => (plainText? w).filter reserved.contains
  | _ => none

/-- The name and the value of an assignment. -/
def assignment? : Word → Option (String × Word)
  | .literal false text :: parts =>
    let name := text.takeWhile isNameChar
    match text.dropWhile isNameChar with
    | '=' :: value =>
      if name.head?.any isNameStart then
        some (String.ofList name, if value = [] then parts else .literal false value :: parts)
      else none
    | _ => none
  | _ => none

/-- The stream that an operator redirects if no number is given; none if it is no redirection. -/
def defaultStream? (op : String) : Option Nat :=
  if ["<", "<<", "<<-", "<&", "<>"].contains op then some 0
  else if [">", ">>", ">&", ">|"].contains op then some 1
  else none

/-- A redirection. -/
def redirection? : Reader Redirection
  | .stream n :: .operator op :: .word w :: ts =>
    (defaultStream? op).map fun _ => (⟨n, op, w⟩, ts)
  | .stream n :: .operator op :: .document w :: ts =>
    (defaultStream? op).map fun _ => (⟨n, op, w⟩, ts)
  | .operator op :: .word w :: ts => (defaultStream? op).map fun n => (⟨n, op, w⟩, ts)
  | .operator op :: .document w :: ts => (defaultStream? op).map fun n => (⟨n, op, w⟩, ts)
  | _ => none

/-- Redirections. -/
def redirections : (fuel : Nat) → List Token → List Redirection × List Token
  | 0, ts => ([], ts)
  | fuel + 1, ts =>
    match redirection? ts with
    | some (r, ts) =>
      let (rs, ts) := redirections fuel ts
      (r :: rs, ts)
    | none => ([], ts)

/-- A command with its redirections. -/
def withRedirections (body : Command) (rs : List Redirection) : Command :=
  if rs.isEmpty then body else .redirected body rs

/-- What a simple command is made of. -/
structure Pieces where
  /-- The assignments. -/
  assignments : List (String × Word)
  /-- The words. -/
  words : List Word
  /-- The redirections. -/
  redirections : List Redirection

/-- The pieces of a simple command. -/
def pieces : (fuel : Nat) → Pieces → List Token → Pieces × List Token
  | 0, p, ts => (p, ts)
  | fuel + 1, p, ts =>
    match redirection? ts with
    | some (r, ts) => pieces fuel { p with redirections := p.redirections ++ [r] } ts
    | none =>
      match ts with
      | .word w :: ts =>
        match p.words.isEmpty, assignment? w with
        | true, some a => pieces fuel { p with assignments := p.assignments ++ [a] } ts
        | _, _ => pieces fuel { p with words := p.words ++ [w] } ts
      | ts => (p, ts)

/-- A simple command, which has at least one piece. -/
def simple? (fuel : Nat) : Reader Command := fun ts =>
  let (p, ts) := pieces fuel ⟨[], [], []⟩ ts
  if p.assignments.isEmpty && p.words.isEmpty && p.redirections.isEmpty then none
  else some (withRedirections (.simple p.assignments p.words) p.redirections, ts)

/-- The words of a loop, up to the end of the line. -/
def loopWords : List Token → List Word × List Token
  | .word w :: ts =>
    let (ws, ts) := loopWords ts
    (w :: ws, ts)
  | ts => ([], ts)

/-- The tokens after the end of a line or a semicolon, which may be missing. -/
def skipSeparator (ts : List Token) : List Token :=
  match ts with
  | .operator ";" :: ts => skipNewlines ts
  | ts => skipNewlines ts

/-- The patterns of an arm, up to the parenthesis after them. -/
def patterns? : List Token → Option (List Word × List Token)
  | .word w :: .operator ")" :: ts => some ([w], ts)
  | .word w :: .operator "|" :: ts => (patterns? ts).map fun (ws, ts) => (w :: ws, ts)
  | _ => none

mutual

/-- Commands up to a token that cannot begin another. -/
def list? : (fuel : Nat) → Reader Command
  | 0, _ => none
  | fuel + 1, ts =>
    let ts := skipNewlines ts
    match ts with
    | [] => some (.nothing, [])
    | .operator ")" :: _ => some (.nothing, ts)
    | .operator ";;" :: _ => some (.nothing, ts)
    | _ =>
      if (reserved? ts).any fun w =>
          ["then", "else", "elif", "fi", "do", "done", "esac", "\x7d"].contains w then
        some (.nothing, ts)
      else do
        let (first, ts) ← andOr? fuel ts
        match ts with
        | .operator "&" :: ts =>
          let (rest, ts) ← list? fuel ts
          pure (.seq (.background first) rest, ts)
        | .operator ";" :: ts =>
          let (rest, ts) ← list? fuel ts
          pure (.seq first rest, ts)
        | .operator "\n" :: ts =>
          let (rest, ts) ← list? fuel ts
          pure (.seq first rest, ts)
        | ts => pure (first, ts)

/-- Pipelines joined by `&&` and `||`. -/
def andOr? : (fuel : Nat) → Reader Command
  | 0, _ => none
  | fuel + 1, ts => do
    let (first, ts) ← pipeline? fuel ts
    andOrRest? fuel first ts

/-- What `&&` or `||` joins to a command. -/
def andOrRest? : (fuel : Nat) → Command → Reader Command
  | 0, _, _ => none
  | fuel + 1, first, ts =>
    match ts with
    | .operator "&&" :: ts => do
      let (second, ts) ← pipeline? fuel (skipNewlines ts)
      andOrRest? fuel (.both first second) ts
    | .operator "||" :: ts => do
      let (second, ts) ← pipeline? fuel (skipNewlines ts)
      andOrRest? fuel (.either first second) ts
    | ts => some (first, ts)

/-- Commands joined by `|`. -/
def pipeline? : (fuel : Nat) → Reader Command
  | 0, _ => none
  | fuel + 1, ts =>
    match keyword? "!" ts with
    | some ts => do
      let (body, ts) ← pipeline? fuel ts
      pure (.negate body, ts)
    | none => do
      let (first, ts) ← command? fuel ts
      match ts with
      | .operator "|" :: ts =>
        let (rest, ts) ← pipeline? fuel (skipNewlines ts)
        pure (.pipe first rest, ts)
      | ts => pure (first, ts)

/-- A command with its redirections. -/
def command? : (fuel : Nat) → Reader Command
  | 0, _ => none
  | fuel + 1, ts =>
    match ts with
    | .operator "(" :: rest => do
      let (body, ts) ← list? fuel rest
      let ts ← operator? ")" ts
      let (rs, ts) := redirections fuel ts
      pure (withRedirections (.subshell body) rs, ts)
    | .word w :: .operator "(" :: .operator ")" :: rest => do
      let name ← plainText? w
      let (body, ts) ← command? fuel (skipNewlines rest)
      pure (.function name body, ts)
    | ts =>
      match reserved? ts with
      | none => simple? (fuel + 1) ts
      | some w => do
        let (body, ts) ← compound? fuel w (ts.drop 1)
        let (rs, ts) := redirections fuel ts
        pure (withRedirections body rs, ts)

/-- The rest of a compound command that begins with a reserved word. -/
def compound? : (fuel : Nat) → String → Reader Command
  | 0, _, _ => none
  | fuel + 1, w, ts =>
    if w = "\x7b" then do
      let (body, ts) ← list? fuel ts
      let ts ← keyword? "\x7d" ts
      pure (body, ts)
    else if w = "if" then branch? fuel ts
    else if w = "while" || w = "until" then do
      let (condition, ts) ← list? fuel ts
      let ts ← keyword? "do" ts
      let (body, ts) ← list? fuel ts
      let ts ← keyword? "done" ts
      pure (.loop (w = "until") condition body, ts)
    else if w = "for" then
      match ts with
      | .word n :: ts => do
        let name ← plainText? n
        let ts := skipNewlines ts
        let (words, ts) := match keyword? "in" ts with
          | some ts =>
            let (ws, ts) := loopWords ts
            (some ws, ts)
          | none => (none, ts)
        let ts ← keyword? "do" (skipSeparator ts)
        let (body, ts) ← list? fuel ts
        let ts ← keyword? "done" ts
        pure (.each name words body, ts)
      | _ => none
    else if w = "case" then
      match ts with
      | .word subject :: ts => do
        let ts ← keyword? "in" (skipNewlines ts)
        let (arms, ts) ← arms? fuel ts
        pure (.case subject arms, ts)
      | _ => none
    else none

/-- The rest of a conditional command, after `if` or `elif`. -/
def branch? : (fuel : Nat) → Reader Command
  | 0, _ => none
  | fuel + 1, ts => do
    let (condition, ts) ← list? fuel ts
    let ts ← keyword? "then" ts
    let (yes, ts) ← list? fuel ts
    match keyword? "elif" ts with
    | some ts =>
      let (no, ts) ← branch? fuel ts
      pure (.branch condition yes no, ts)
    | none =>
      match keyword? "else" ts with
      | some ts =>
        let (no, ts) ← list? fuel ts
        let ts ← keyword? "fi" ts
        pure (.branch condition yes no, ts)
      | none =>
        let ts ← keyword? "fi" ts
        pure (.branch condition yes .nothing, ts)

/-- The arms of a case command, up to its end. -/
def arms? : (fuel : Nat) → Reader (List (List Word × Command))
  | 0, _ => none
  | fuel + 1, ts =>
    let ts := skipNewlines ts
    match keyword? "esac" ts with
    | some ts => some ([], ts)
    | none => do
      let (ws, ts) ← patterns? ((operator? "(" ts).getD ts)
      let (body, ts) ← list? fuel ts
      match operator? ";;" ts with
      | some ts =>
        let (arms, ts) ← arms? fuel ts
        pure ((ws, body) :: arms, ts)
      | none =>
        let ts ← keyword? "esac" ts
        pure ([(ws, body)], ts)

end

/-- The command that a script is. -/
def ofText? (cs : List Char) : Option Command := do
  let ts ← tokens? cs
  let (c, rest) ← list? (8 * ts.length + 8) ts
  if rest.isEmpty then some c else none

end Command

end Polyglot.Shell
