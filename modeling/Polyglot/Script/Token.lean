import Polyglot.Text.Quoted

/-!
# Tokens of scripts

The words of a script with the lines that they stand on, and the mistakes that keep a text from being
a script. Messages show a token by the name of its kind, with its content where it has one.
-/

namespace Polyglot.Script

/-- What a token is. -/
inductive Kind where
  /-- An integer literal. -/
  | int (value : Nat)
  /-- A string literal. -/
  | text (value : String)
  /-- A name. -/
  | name (value : String)
  /-- The word `function`. -/
  | function
  /-- The word `const`. -/
  | const
  /-- The words `let` and `var`. -/
  | «let»
  /-- The word `return`. -/
  | «return»
  /-- The word `if`. -/
  | «if»
  /-- The word `else`. -/
  | «else»
  /-- The word `for`. -/
  | «for»
  /-- The word `of`. -/
  | of
  /-- The word `throw`. -/
  | throw
  /-- The word `true`. -/
  | true
  /-- The word `false`. -/
  | false
  /-- The words `null` and `undefined`. -/
  | null
  /-- An opening parenthesis. -/
  | openParen
  /-- A closing parenthesis. -/
  | closeParen
  /-- An opening brace. -/
  | openBrace
  /-- A closing brace. -/
  | closeBrace
  /-- An opening bracket. -/
  | openBracket
  /-- A closing bracket. -/
  | closeBracket
  /-- A comma. -/
  | comma
  /-- A semicolon. -/
  | semicolon
  /-- A point. -/
  | dot
  /-- A question mark. -/
  | question
  /-- A colon. -/
  | colon
  /-- The arrow of a function. -/
  | arrow
  /-- The sign of assignment. -/
  | assign
  /-- The sign of assignment with addition. -/
  | plusAssign
  /-- Equality, written with two or three signs. -/
  | equal
  /-- Inequality, written with one or two signs after the mark. -/
  | notEqual
  /-- Less than. -/
  | less
  /-- Less than or equal. -/
  | lessEqual
  /-- Greater than. -/
  | greater
  /-- Greater than or equal. -/
  | greaterEqual
  /-- Plus. -/
  | plus
  /-- Minus. -/
  | minus
  /-- Times. -/
  | star
  /-- Division. -/
  | slash
  /-- Remainder. -/
  | percent
  /-- Negation of a truth value. -/
  | bang
  /-- Conjunction. -/
  | and
  /-- Disjunction. -/
  | or
  /-- The end of the script. -/
  | eof
  deriving DecidableEq, Repr

/-- A token and the line that it stands on. -/
structure Token where
  /-- What the token is. -/
  kind : Kind
  /-- Its line; the first one is `1`. -/
  line : Nat
  deriving DecidableEq, Repr

/-- How a message shows a token. -/
def Kind.display : Kind → String
  | .int n => "Int(" ++ toString n ++ ")"
  | .text s => "Str(" ++ Text.quoted s ++ ")"
  | .name s => "Ident(" ++ Text.quoted s ++ ")"
  | .function => "Function"
  | .const => "Const"
  | .let => "Let"
  | .return => "Return"
  | .if => "If"
  | .else => "Else"
  | .for => "For"
  | .of => "Of"
  | .throw => "Throw"
  | .true => "True"
  | .false => "False"
  | .null => "Null"
  | .openParen => "LParen"
  | .closeParen => "RParen"
  | .openBrace => "LBrace"
  | .closeBrace => "RBrace"
  | .openBracket => "LBracket"
  | .closeBracket => "RBracket"
  | .comma => "Comma"
  | .semicolon => "Semicolon"
  | .dot => "Dot"
  | .question => "Question"
  | .colon => "Colon"
  | .arrow => "Arrow"
  | .assign => "Assign"
  | .plusAssign => "PlusAssign"
  | .equal => "EqEq"
  | .notEqual => "NotEq"
  | .less => "Lt"
  | .lessEqual => "LtEq"
  | .greater => "Gt"
  | .greaterEqual => "GtEq"
  | .plus => "Plus"
  | .minus => "Minus"
  | .star => "Star"
  | .slash => "Slash"
  | .percent => "Percent"
  | .bang => "Bang"
  | .and => "AndAnd"
  | .or => "OrOr"
  | .eof => "Eof"

/-- The kind of a word: a keyword or a name. -/
def Kind.ofWord (word : String) : Kind :=
  if word = "function" then .function
  else if word = "const" then .const
  else if word = "let" ∨ word = "var" then .let
  else if word = "return" then .return
  else if word = "if" then .if
  else if word = "else" then .else
  else if word = "for" then .for
  else if word = "of" then .of
  else if word = "throw" then .throw
  else if word = "true" then .true
  else if word = "false" then .false
  else if word = "null" ∨ word = "undefined" then .null
  else .name word

/-! ### Mistakes -/

/-- What is wrong with a text that is no script. -/
inductive Mistake where
  /-- A character begins no token. -/
  | unexpectedCharacter (c : Char)
  /-- A comment is not closed. -/
  | unterminatedComment
  /-- A string is not closed. -/
  | unterminatedString
  /-- A string contains the end of a line. -/
  | newlineInString
  /-- A string ends with a backslash. -/
  | unterminatedEscape
  /-- The characters after `\u` are no code point. -/
  | badUnicodeEscape (digits : String)
  /-- An integer literal does not fit into 64 bits. -/
  | integerOutOfRange (digits : String)
  /-- Something else was expected. -/
  | expected (what : String) (found : Kind)
  /-- A token begins no expression. -/
  | unexpectedToken (found : Kind)
  /-- A constant has no value. -/
  | missingInitializer (found : Kind)
  /-- Code is nested too deeply. -/
  | tooDeep (found : Kind)
  deriving DecidableEq, Repr

/-- The wording of a mistake. -/
def Mistake.describe : Mistake → String
  | .unexpectedCharacter c => "unexpected character " ++ Text.quotedSingle c
  | .unterminatedComment => "unterminated block comment"
  | .unterminatedString => "unterminated string literal"
  | .newlineInString => "newline in string literal"
  | .unterminatedEscape => "unterminated escape sequence"
  | .badUnicodeEscape digits => "bad unicode escape \\u" ++ digits
  | .integerOutOfRange digits => "integer literal " ++ digits ++ " is out of range"
  | .expected what found => "expected " ++ what ++ ", found " ++ found.display
  | .unexpectedToken found => "unexpected token " ++ found.display
  | .missingInitializer found =>
    "missing initializer in const declaration, found " ++ found.display
  | .tooDeep found => "code is nested too deeply, found " ++ found.display

/-- A mistake and the line that it is on. -/
structure LocatedMistake where
  /-- The line. -/
  line : Nat
  /-- What is wrong there. -/
  mistake : Mistake
  deriving DecidableEq, Repr

/-- The message of a mistake. -/
def LocatedMistake.message (m : LocatedMistake) : String :=
  "SyntaxError (line " ++ toString m.line ++ "): " ++ m.mistake.describe

end Polyglot.Script
