import Polyglot.Shell.Word

/-!
# Scanning shell commands

The tokens of a script. A document, whose text follows the line of the command that reads it, is put
where its mark stands.
-/

namespace Polyglot.Shell

/-- The operators, longer ones first. -/
def operators : List String :=
  ["<<-", "&&", "||", ";;", "<<", ">>", "<&", ">&", ">|", "<>", "&", "|", ";", "<", ">", "(", ")",
    "\n"]

/-- What follows a text at the start of another. -/
def after? : List Char → List Char → Option (List Char)
  | [], rest => some rest
  | _ :: _, [] => none
  | c :: cs, d :: ds => if c = d then after? cs ds else none

/-- The operator that a text begins with, and what follows it. -/
def scanOperator? (cs : List Char) : Option (String × List Char) :=
  operators.findSome? fun op => (after? op.toList cs).map fun rest => (op, rest)

/-- A document whose text is still to come. -/
structure Awaited where
  /-- The line that ends it. -/
  mark : List Char
  /-- Whether it is free of expansions. -/
  quoted : Bool
  /-- Whether tabs at the start of lines are dropped. -/
  stripped : Bool

/-- The text of a literal word, quoted or not, and whether any of it is quoted. -/
def markOf (w : Word) : List Char × Bool :=
  w.foldr (fun part (text, quoted) =>
    match part with
    | .literal q s => (s ++ text, q || quoted)
    | _ => (text, quoted)) ([], false)

/-- The lines up to a mark, and what follows it. -/
def untilMark (awaited : Awaited) : (fuel : Nat) → List Char → List Char × List Char
  | 0, cs => (cs, [])
  | fuel + 1, cs =>
    if cs = [] then ([], [])
    else
      let line := cs.takeWhile (· ≠ '\n')
      let rest := (cs.dropWhile (· ≠ '\n')).drop 1
      let line := if awaited.stripped then line.dropWhile (· = '\t') else line
      if line = awaited.mark then ([], rest)
      else
        let (text, rest) := untilMark awaited fuel rest
        (line ++ '\n' :: text, rest)

/-- Puts the text of a document where the first mark without one stands. -/
def fillFirst (document : Token) : List Token → List Token
  | [] => []
  | .document [] :: rest => document :: rest
  | t :: rest => t :: fillFirst document rest

/-- The text of a document as a token. -/
def documentToken (awaited : Awaited) (text : List Char) : Option Token :=
  if awaited.quoted then some (.document [.literal true text])
  else (Word.ofDocument? text).map fun parts => .document (addLiteral true [] parts)

/-- Reads the texts of documents that are awaited. -/
def readDocuments : List Awaited → List Token → List Char → Option (List Token × List Char)
  | [], tokens, cs => some (tokens, cs)
  | awaited :: rest, tokens, cs => do
    let (text, cs) := untilMark awaited cs.length cs
    let document ← documentToken awaited text
    readDocuments rest (fillFirst document tokens) cs

/-- Whether the tokens end in an operator that a document's mark follows; whether tabs are dropped. -/
def documentNext? (tokens : List Token) : Option Bool :=
  match tokens.getLast? with
  | some (.operator "<<") => some false
  | some (.operator "<<-") => some true
  | _ => none

/-- The number that a word of digits is. -/
def streamNumber? (w : Word) : Option Nat := do
  let text ← plainText? w
  if text.length = 1 then text.toNat? else none

/-- The tokens of a script, after those given. -/
def scanTokens : (fuel : Nat) → List Awaited → List Token → List Char → Option (List Token)
  | 0, _, _, _ => none
  | fuel + 1, awaited, tokens, cs =>
    match cs with
    | [] => some tokens
    | '\\' :: '\n' :: rest => scanTokens fuel awaited tokens rest
    | '#' :: rest => scanTokens fuel awaited tokens (rest.dropWhile (· ≠ '\n'))
    | c :: rest =>
      if c = ' ' || c = '\t' then scanTokens fuel awaited tokens rest
      else
        match scanOperator? (c :: rest) with
        | some ("\n", rest) =>
          match readDocuments awaited (tokens ++ [.operator "\n"]) rest with
          | some (tokens, rest) => scanTokens fuel [] tokens rest
          | none => none
        | some (op, rest) => scanTokens fuel awaited (tokens ++ [.operator op]) rest
        | none =>
          match scanWord false (cs.length + 1) [] cs with
          | none => none
          | some (w, rest) =>
            match documentNext? tokens with
            | some stripped =>
              let (mark, quoted) := markOf w
              scanTokens fuel (awaited ++ [⟨mark, quoted, stripped⟩]) (tokens ++ [.document []]) rest
            | none =>
              match streamNumber? w, rest with
              | some n, '<' :: _ => scanTokens fuel awaited (tokens ++ [.stream n]) rest
              | some n, '>' :: _ => scanTokens fuel awaited (tokens ++ [.stream n]) rest
              | _, _ => scanTokens fuel awaited (tokens ++ [.word w]) rest

/-- The tokens of a script. -/
def tokens? (cs : List Char) : Option (List Token) := scanTokens (cs.length + 1) [] [] cs

end Polyglot.Shell
