/-!
# Built-in identifiers

The identifiers of the types and sentinels that the evaluator knows by name.
-/

namespace Polyglot.TypeId

/-- The type that every object has. -/
def any : String := "Z1"

/-- Declarations of the keys of a type. -/
def key : String := "Z3"

/-- Types given by their keys. -/
def type : String := "Z4"

/-- Errors. -/
def error : String := "Z5"

/-- Strings. -/
def string : String := "Z6"

/-- Function calls, and so types that are the result of one. -/
def call : String := "Z7"

/-- Functions. -/
def function : String := "Z8"

/-- References to objects. -/
def reference : String := "Z9"

/-- Lists of the old form, without an element type. -/
def oldList : String := "Z10"

/-- Texts in one language. -/
def monolingual : String := "Z11"

/-- Texts in several languages. -/
def multilingual : String := "Z12"

/-- The unit type. -/
def unit : String := "Z21"

/-- Evaluation results. -/
def envelope : String := "Z22"

/-- The type without values. -/
def nothing : String := "Z23"

/-- The void sentinel. -/
def void : String := "Z24"

/-- Truth values. -/
def boolean : String := "Z40"

/-- The truth value true. -/
def true : String := "Z41"

/-- The truth value false. -/
def false : String := "Z42"

/-- Single characters. -/
def codePoint : String := "Z86"

/-- The function from a type to the type of lists of it. -/
def list : String := "Z881"

/-- The function from two types to the type of pairs of them. -/
def pair : String := "Z882"

/-- The function from two types to the type of maps between them. -/
def map : String := "Z883"

/-- The validator that descriptors name. -/
def validator : String := "Z104"

/-! ### Tokens -/

/-- Whether characters are decimal digits, at least one, the first of them not zero. -/
def isOrdinal (cs : List Char) : Bool :=
  !cs.isEmpty && cs.all Char.isDigit && cs.head? != some '0'

/-- Whether a text is `Z<n>` or `Z<n>K<n>`, the shape of a bare reference. -/
def isToken (s : String) : Bool :=
  match s.toList with
  | 'Z' :: rest =>
    match rest.dropWhile (· != 'K') with
    | [] => isOrdinal rest
    | _ :: key => isOrdinal (rest.takeWhile (· != 'K')) && isOrdinal key
  | _ => Bool.false

end Polyglot.TypeId
