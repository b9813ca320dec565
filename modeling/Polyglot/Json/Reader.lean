import Polyglot.Json.Token

/-!
# Reading JSON text

Reading goes through a draft: a tree of the text's form, in which a number out of range or a string
with half of a surrogate pair has no value yet. `Draft.settle?` turns a draft into a value if every
part of it has one. A reader of records may leave parts of a draft unsettled, which is why the two
steps are apart.

`Json.read?` is the plain reader, with a limit on nesting.
-/

namespace Polyglot.Json

/-- A tree of JSON text whose numbers and strings may lack a value. -/
inductive Draft where
  /-- The value `null`. -/
  | null
  /-- A truth value. -/
  | bool (value : Bool)
  /-- A number, if it is in range. -/
  | num (value : Option Number)
  /-- A string, if it is well formed. -/
  | str (value : Option String)
  /-- An array. -/
  | arr (items : List Draft)
  /-- An object, its fields as they were written. -/
  | obj (fields : List (Option String × Draft))
  deriving Inhabited, Repr

/-! ### From tokens to drafts -/

/-- An array or object that is not closed yet; its parts are the last one first. -/
inductive Frame where
  /-- An array. -/
  | items (before : List Draft)
  /-- An object, and the key of the field that comes next. -/
  | fields (before : List (Option String × Draft)) (key : Option String)

/-- What may come next. -/
inductive Expected where
  /-- A value. -/
  | value
  /-- A value, or the bracket that closes an empty array. -/
  | firstItem
  /-- A comma, or the bracket that closes the array of these items. -/
  | nextItem (before : List Draft)
  /-- A key, or the brace that closes an empty object. -/
  | firstKey
  /-- A key of the object with these fields. -/
  | key (before : List (Option String × Draft))
  /-- A colon after a key of the object with these fields. -/
  | colon (before : List (Option String × Draft)) (key : Option String)
  /-- A comma, or the brace that closes the object of these fields. -/
  | nextField (before : List (Option String × Draft))
  /-- Nothing: the text is complete. -/
  | finished (result : Draft)

/-- A reader between two tokens. -/
structure Progress where
  /-- The arrays and objects around the place, the innermost first. -/
  around : List Frame
  /-- What may come next. -/
  expected : Expected

namespace Progress

/-- The reader after a complete value. -/
def complete (v : Draft) : List Frame → Progress
  | [] => ⟨[], .finished v⟩
  | .items before :: around => ⟨around, .nextItem (v :: before)⟩
  | .fields before key :: around => ⟨around, .nextField ((key, v) :: before)⟩

/-- The reader after the first token of a value. -/
def enter? (around : List Frame) : Token → Option Progress
  | .null => some (complete .null around)
  | .bool b => some (complete (.bool b) around)
  | .num n => some (complete (.num n) around)
  | .str s => some (complete (.str s) around)
  | .openArray => some ⟨around, .firstItem⟩
  | .openObject => some ⟨around, .firstKey⟩
  | _ => none

/-- The reader after a token; none when the token may not stand there. -/
def step? (p : Progress) (t : Token) : Option Progress :=
  match p.expected, t with
  | .value, t => enter? p.around t
  | .firstItem, .closeArray => some (complete (.arr []) p.around)
  | .firstItem, t => enter? (.items [] :: p.around) t
  | .nextItem before, .comma => some ⟨.items before :: p.around, .value⟩
  | .nextItem before, .closeArray => some (complete (.arr before.reverse) p.around)
  | .firstKey, .closeObject => some (complete (.obj []) p.around)
  | .firstKey, .str k => some ⟨p.around, .colon [] k⟩
  | .key before, .str k => some ⟨p.around, .colon before k⟩
  | .colon before k, .colon => some ⟨.fields before k :: p.around, .value⟩
  | .nextField before, .comma => some ⟨p.around, .key before⟩
  | .nextField before, .closeObject => some (complete (.obj before.reverse) p.around)
  | _, _ => none

end Progress

/-- The draft that tokens write. -/
def Draft.ofTokens? (ts : List Token) : Option Draft :=
  match ts.foldlM Progress.step? ⟨[], .value⟩ with
  | some ⟨_, .finished v⟩ => some v
  | _ => none

/-- The draft of a text. -/
def Draft.ofText? (s : String) : Option Draft := (tokens? s.toList).bind Draft.ofTokens?

/-! ### From drafts to values -/

namespace Draft

mutual

/-- The value of a draft; none if a part of it has none. Of two fields with one key the last is
kept. -/
def settle? : Draft → Option Json
  | null => some .null
  | bool b => some (.bool b)
  | num n => n.map .num
  | str s => s.map .str
  | arr xs => (settleItems? xs).map .arr
  | obj xs => (settleFields? xs).map object

/-- The values of the items. -/
def settleItems? : List Draft → Option (List Json)
  | [] => some []
  | x :: xs => do
    let x ← settle? x
    let xs ← settleItems? xs
    pure (x :: xs)

/-- The keys and values of the fields. -/
def settleFields? : List (Option String × Draft) → Option (List (String × Json))
  | [] => some []
  | (k, x) :: xs => do
    let k ← k
    let x ← settle? x
    let xs ← settleFields? xs
    pure ((k, x) :: xs)

end

mutual

/-- How deep arrays and objects are nested in a draft. -/
def depth : Draft → Nat
  | arr xs => depthItems xs + 1
  | obj xs => depthFields xs + 1
  | _ => 0

/-- The greatest depth of the items. -/
def depthItems : List Draft → Nat
  | [] => 0
  | x :: xs => max (depth x) (depthItems xs)

/-- The greatest depth of the fields. -/
def depthFields : List (Option String × Draft) → Nat
  | [] => 0
  | (_, x) :: xs => max (depth x) (depthFields xs)

end

mutual

/-- The draft that writes a value. -/
def ofJson : Json → Draft
  | .null => null
  | .bool b => bool b
  | .num n => num (some n)
  | .str s => str (some s)
  | .arr xs => arr (ofItems xs)
  | .obj xs => obj (ofFields xs)

/-- The drafts that write the items. -/
def ofItems : List Json → List Draft
  | [] => []
  | x :: xs => ofJson x :: ofItems xs

/-- The drafts that write the fields. -/
def ofFields : List (String × Json) → List (Option String × Draft)
  | [] => []
  | (k, x) :: xs => (some k, ofJson x) :: ofFields xs

end

/-- The value of a draft that is nested no deeper than the limit. -/
def settleWithin? (limit : Nat) (d : Draft) : Option Json :=
  if d.depth ≤ limit then d.settle? else none

end Draft

/-- How deep arrays and objects may be nested in a text that is read. -/
def maxDepth : Nat := 127

/-- The value of a text that is nested no deeper than the limit. -/
def readWithin? (limit : Nat) (s : String) : Option Json :=
  (Draft.ofText? s).bind (Draft.settleWithin? limit)

/-- The value of a text that is nested no deeper than `maxDepth`. -/
def read? (s : String) : Option Json := readWithin? maxDepth s

/-- The value of a text, however deep it is nested. -/
def readDeep? (s : String) : Option Json := (Draft.ofText? s).bind Draft.settle?

end Polyglot.Json
