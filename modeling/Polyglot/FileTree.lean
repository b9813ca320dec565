/-!
# File trees

The files that a program can see: directories, text files, other data, and programs. A path is looked
up component by component, from the root or from the current directory, as it is done on Linux: every
component but the last must lead to a directory, and so must the last one if a slash follows it.
-/

namespace Polyglot

/-- What stands at a path. -/
inductive File where
  /-- A directory. -/
  | directory
  /-- A text. -/
  | text (content : String)
  /-- Data that is not text. -/
  | data
  /-- A program of the given name. -/
  | program (name : String)
  deriving DecidableEq, Repr

/-- Why a path leads to no file, or to none that will do. -/
inductive FileError where
  /-- There is no such file. -/
  | notFound
  /-- A component before the last is no directory. -/
  | notDirectory
  /-- A directory is no text. -/
  | isDirectory
  /-- The file may not be used that way. -/
  | denied
  /-- A component is too long. -/
  | tooLong
  /-- The content is not text. -/
  | notText
  /-- The path holds a null character. -/
  | nullCharacter
  deriving DecidableEq, Repr

/-- The text of a file error. -/
def FileError.message : FileError → String
  | notFound => "No such file or directory (os error 2)"
  | notDirectory => "Not a directory (os error 20)"
  | isDirectory => "Is a directory (os error 21)"
  | denied => "Permission denied (os error 13)"
  | tooLong => "File name too long (os error 36)"
  | notText => "stream did not contain valid UTF-8"
  | nullCharacter => "file name contained an unexpected NUL byte"

/-- Files by the components of their paths, and a current directory. -/
structure FileTree where
  /-- The current directory. -/
  current : List String
  /-- The files; a directory that holds others need not be listed. -/
  files : List (List String × File)

namespace FileTree

/-- The largest number of octets in a component. -/
def maxComponent : Nat := 255

/-- The file at the given components. -/
def at? (tree : FileTree) (place : List String) : Option File :=
  match tree.files.find? fun entry => entry.1 = place with
  | some entry => some entry.2
  | none =>
    if place = tree.current || tree.files.any fun entry => place.isPrefixOf entry.1 then
      some .directory
    else none

/-- The parts of a text between slashes. -/
def splitSlashes : List Char → List (List Char)
  | [] => [[]]
  | c :: rest =>
    if c = '/' then [] :: splitSlashes rest
    else
      match splitSlashes rest with
      | part :: parts => (c :: part) :: parts
      | [] => [[c]]

/-- The place that a component leads to from another. -/
def stepTo (tree : FileTree) (place : List String) (component : String) :
    Except FileError (List String) :=
  if tree.at? place ≠ some .directory then .error .notDirectory
  else if component = "" || component = "." then .ok place
  else if component = ".." then .ok place.dropLast
  else if maxComponent < component.utf8ByteSize then .error .tooLong
  else if (tree.at? (place ++ [component])).isSome then .ok (place ++ [component])
  else .error .notFound

/-- The place that a path leads to. -/
def resolve (tree : FileTree) (path : String) : Except FileError (List String) :=
  let chars := path.toList
  if chars.contains '\x00' then .error .nullCharacter
  else if chars = [] then .error .notFound
  else
    let start := if chars.head? = some '/' then [] else tree.current
    (splitSlashes chars).foldlM (fun place part => tree.stepTo place (String.ofList part)) start

/-- The file that a path leads to. -/
def find (tree : FileTree) (path : String) : Except FileError File := do
  let place ← tree.resolve path
  match tree.at? place with
  | some file => pure file
  | none => .error .notFound

/-- Whether a path leads to a file. -/
def contains (tree : FileTree) (path : String) : Bool := (tree.find path).toOption.isSome

/-- The text of the file that a path leads to. -/
def read (tree : FileTree) (path : String) : Except FileError String := do
  match ← tree.find path with
  | .text content => pure content
  | .directory => .error .isDirectory
  | .data | .program _ => .error .notText

/-- The place that a component names from another, whether there is a file or not. -/
def stepByName (place : List String) (component : String) : List String :=
  if component = "" || component = "." then place
  else if component = ".." then place.dropLast
  else place ++ [component]

/-- The place that a path names. -/
def placeOf (tree : FileTree) (path : String) : List String :=
  let chars := path.toList
  let start := if chars.head? = some '/' then [] else tree.current
  (splitSlashes chars).foldl (fun place part => stepByName place (String.ofList part)) start

/-- Adds a file at a path. -/
def add (tree : FileTree) (path : String) (file : File) : FileTree :=
  { tree with files := (tree.placeOf path, file) :: tree.files }

/-! ### Programs by name -/

/-- The directories where programs are looked up by name. -/
def programPath : List (List String) :=
  [["usr", "local", "sbin"], ["usr", "local", "bin"], ["usr", "sbin"], ["usr", "bin"], ["sbin"],
    ["bin"]]

/-- The place of a program that is given by name or by path. -/
def findProgram (tree : FileTree) (name : String) : Except FileError File :=
  if name.toList.contains '/' then tree.find name
  else
    match programPath.findSome? fun directory =>
        match tree.at? (directory ++ [name]) with
        | some (.program p) => some (.program p)
        | _ => none with
    | some file => .ok file
    | none => .error .notFound

end FileTree

end Polyglot
