import Polyglot.Text.Raw

/-!
# Words and tokens of shell commands

A word is a sequence of parts: literal text, and the sources of expansions that are made when the
command is run. A part is quoted or not, which decides whether what it expands to is split into fields.
-/

namespace Polyglot.Shell

/-- A part of a word. -/
inductive Part where
  /-- Text that stands for itself. -/
  | literal (quoted : Bool) (text : List Char)
  /-- The value of a parameter; the source is what stands between the braces. -/
  | parameter (quoted : Bool) (source : List Char)
  /-- The output of a command. -/
  | command (quoted : Bool) (source : List Char)
  /-- The value of an arithmetic expression. -/
  | arithmetic (quoted : Bool) (source : List Char)
  deriving DecidableEq, Repr

/-- A word. -/
abbrev Word := List Part

/-- A token of the command language. -/
inductive Token where
  /-- A word. -/
  | word (parts : Word)
  /-- An operator; a newline counts as one. -/
  | operator (text : String)
  /-- The number of a stream, right before a redirection. -/
  | stream (number : Nat)
  /-- The text that follows a command up to a mark. -/
  | document (parts : Word)
  deriving DecidableEq, Repr

/-- Whether a character may begin a name. -/
def isNameStart (c : Char) : Bool := c.isAlpha || c = '_'

/-- Whether a character may go on with a name. -/
def isNameChar (c : Char) : Bool := c.isAlphanum || c = '_'

/-- Whether a character is a special parameter by itself. -/
def isSpecial (c : Char) : Bool := c.isDigit || ['?', '#', '@', '*', '$', '!', '-'].contains c

/-- The text of a word that is literal throughout and not quoted. -/
def plainText? : Word → Option String
  | [.literal false text] => some (String.ofList text)
  | _ => none

/-- Adds literal text after parts. -/
def addLiteral (quoted : Bool) (text : List Char) (parts : Word) : Word :=
  match parts.getLast? with
  | some (.literal q before) =>
    if q = quoted then parts.dropLast ++ [.literal q (before ++ text)]
    else parts ++ [.literal quoted text]
  | _ => parts ++ [.literal quoted text]

/-! ### Scanning up to a closing character -/

/-- In which quotes a scan is. -/
inductive Quotes where
  /-- In none. -/
  | none
  /-- In single ones. -/
  | single
  /-- In double ones. -/
  | double
  /-- After a backslash, which may stand in double quotes. -/
  | escaped (inDouble : Bool)

/-- The quotes after a character. -/
def Quotes.after (q : Quotes) (c : Char) : Quotes :=
  match q with
  | .escaped true => .double
  | .escaped false => .none
  | .single => if c = '\'' then .none else .single
  | .double => if c = '"' then .none else if c = '\\' then .escaped true else .double
  | .none =>
    if c = '\'' then .single else if c = '"' then .double
    else if c = '\\' then .escaped false else .none

/-- The text up to the character that closes a bracket, and what follows that character. -/
def untilClosed (opening closing : Char) :
    (depth : Nat) → Quotes → List Char → Option (List Char × List Char)
  | _, _, [] => none
  | depth, q, c :: rest =>
    let goOn (depth : Nat) : Option (List Char × List Char) :=
      (untilClosed opening closing depth (q.after c) rest).map fun (text, rest) => (c :: text, rest)
    match q with
    | .none =>
      if c = closing then if depth = 0 then some ([], rest) else goOn (depth - 1)
      else if c = opening then goOn (depth + 1)
      else goOn depth
    | _ => goOn depth

/-- The text up to a character, and what follows that character. -/
def untilChar (stop : Char) : List Char → Option (List Char × List Char)
  | [] => none
  | c :: rest =>
    if c = stop then some ([], rest)
    else (untilChar stop rest).map fun (text, rest) => (c :: text, rest)

/-! ### Parts -/

/-- The part that the output of a command or an arithmetic expression makes, from the text between the
outer parentheses. -/
def ofParentheses (quoted : Bool) (source : List Char) : Part :=
  match source with
  | '(' :: inner =>
    match untilClosed '(' ')' 0 .none inner with
    | some (expression, []) => .arithmetic quoted expression
    | _ => .command quoted source
  | _ => .command quoted source

/-- The part after a dollar sign, and what follows it; the dollar sign stands for itself if no
expansion follows. -/
def scanDollar (quoted : Bool) (cs : List Char) : Option (Part × List Char) :=
  match cs with
  | '(' :: rest =>
    (untilClosed '(' ')' 0 .none rest).map fun (source, rest) =>
      (ofParentheses quoted source, rest)
  | '\x7b' :: rest =>
    (untilClosed '\x7b' '\x7d' 0 .none rest).map fun (source, rest) =>
      (.parameter quoted source, rest)
  | c :: rest =>
    if isNameStart c then
      some (.parameter quoted (c :: rest.takeWhile isNameChar), rest.dropWhile isNameChar)
    else if isSpecial c then some (.parameter quoted [c], rest)
    else some (.literal true ['$'], c :: rest)
  | [] => some (.literal true ['$'], [])

/-- Adds a part after others. -/
def addPart (part : Part) (parts : Word) : Word :=
  match part with
  | .literal quoted text => addLiteral quoted text parts
  | part => parts ++ [part]

/-- The parts of a text between double quotes, up to the closing one, and what follows it. Without a
closing quote the text is that of a document and goes on to the end. -/
def scanQuoted (closed : Bool) :
    (fuel : Nat) → Word → List Char → Option (Word × List Char)
  | 0, _, _ => none
  | fuel + 1, parts, cs =>
    match cs with
    | [] => if closed then none else some (parts, [])
    | '"' :: rest =>
      if closed then some (addLiteral true [] parts, rest)
      else scanQuoted closed fuel (addLiteral true ['"'] parts) rest
    | '\\' :: '\n' :: rest => scanQuoted closed fuel parts rest
    | '\\' :: c :: rest =>
      if ['$', '\x60', '"', '\\'].contains c then
        scanQuoted closed fuel (addLiteral true [c] parts) rest
      else scanQuoted closed fuel (addLiteral true ['\\', c] parts) rest
    | '\x60' :: rest =>
      match untilChar '\x60' rest with
      | some (source, rest) => scanQuoted closed fuel (parts ++ [.command true source]) rest
      | none => none
    | '$' :: rest =>
      match scanDollar true rest with
      | some (part, rest) => scanQuoted closed fuel (addPart part parts) rest
      | none => none
    | c :: rest => scanQuoted closed fuel (addLiteral true [c] parts) rest

/-- Whether a character ends a word. -/
def endsWord (c : Char) : Bool :=
  [' ', '\t', '\n', ';', '&', '|', '<', '>', '(', ')'].contains c

/-- The parts of a word up to a character that ends it, and the text from there on. Where only
`everything` is a word, no character ends it. -/
def scanWord (everything : Bool) : (fuel : Nat) → Word → List Char → Option (Word × List Char)
  | 0, _, _ => none
  | fuel + 1, parts, cs =>
    match cs with
    | [] => some (parts, [])
    | '\\' :: '\n' :: rest => scanWord everything fuel parts rest
    | '\\' :: c :: rest => scanWord everything fuel (addLiteral true [c] parts) rest
    | '\'' :: rest =>
      match untilChar '\'' rest with
      | some (text, rest) => scanWord everything fuel (addLiteral true text parts) rest
      | none => none
    | '"' :: rest =>
      match scanQuoted true fuel (addLiteral true [] parts) rest with
      | some (parts, rest) => scanWord everything fuel parts rest
      | none => none
    | '\x60' :: rest =>
      match untilChar '\x60' rest with
      | some (source, rest) => scanWord everything fuel (parts ++ [.command false source]) rest
      | none => none
    | '$' :: rest =>
      match scanDollar false rest with
      | some (part, rest) => scanWord everything fuel (addPart part parts) rest
      | none => none
    | c :: rest =>
      if endsWord c && !everything then some (parts, c :: rest)
      else scanWord everything fuel (addLiteral false [c] parts) rest

/-- The word that a whole text is. -/
def Word.ofText? (cs : List Char) : Option Word :=
  (scanWord true (cs.length + 1) [] cs).map (·.1)

/-- The word that a text is in which quotes stand for themselves. -/
def Word.ofDocument? (cs : List Char) : Option Word :=
  (scanQuoted false (cs.length + 1) [] cs).map (·.1)

end Polyglot.Shell
