import Polyglot.Json.Number

/-!
# JSON values

The values of JSON. The fields of an object are a list of pairs whose keys ascend, so that two
objects with the same fields are the same value; `Fields.insert` keeps them so, and `Json.object`
builds an object from fields in any order, the last of two with one key being kept.

`Fields.find?_insert` says what a field is after an insertion.
-/

namespace Polyglot

/-- A JSON value. -/
inductive Json where
  /-- The value `null`. -/
  | null
  /-- A truth value. -/
  | bool (value : Bool)
  /-- A number. -/
  | num (value : Json.Number)
  /-- A string. -/
  | str (value : String)
  /-- An array. -/
  | arr (items : List Json)
  /-- An object, its keys in ascending order. -/
  | obj (fields : List (String × Json))
  deriving Inhabited, Repr

namespace Json

/-! ### Fields -/

/-- Keys with values, the keys in ascending order of code points. -/
abbrev Fields (α : Type) := List (String × α)

namespace Fields

variable {α : Type}

/-- Adds a field at its place, or replaces the one with that key. -/
def insert (key : String) (value : α) : Fields α → Fields α
  | [] => [(key, value)]
  | (k, v) :: rest =>
    if key = k then (key, value) :: rest
    else if key < k then (key, value) :: (k, v) :: rest
    else (k, v) :: insert key value rest

/-- The value under a key. -/
def find? (fields : Fields α) (key : String) : Option α :=
  match fields with
  | [] => none
  | (k, v) :: rest => if k = key then some v else find? rest key

/-- The fields without the one under a key. -/
def erase (fields : Fields α) (key : String) : Fields α := fields.filter (·.1 ≠ key)

/-- Fields in any order, inserted one after another. -/
def ofList (fields : List (String × α)) : Fields α :=
  fields.foldl (fun acc (k, v) => acc.insert k v) []

theorem find?_insert (fields : Fields α) (key other : String) (value : α) :
    (fields.insert key value).find? other = if key = other then some value else fields.find? other := by
  induction fields with
  | nil => simp [insert, find?]
  | cons field rest ih =>
    obtain ⟨k, v⟩ := field
    simp only [insert]
    split
    · subst_vars; simp only [find?]; split <;> simp_all
    · split
      · simp [find?]
      · simp only [find?, ih]; grind

theorem sizeOf_lt_of_find? [SizeOf α] {fields : Fields α} {key : String} {value : α}
    (h : fields.find? key = some value) : sizeOf value < sizeOf fields := by
  induction fields with
  | nil => simp [find?] at h
  | cons field rest ih =>
    obtain ⟨k, v⟩ := field
    simp only [find?] at h
    split at h
    · cases h; simp; omega
    · have := ih h; simp; omega

theorem mem_of_find? {fields : Fields α} {key : String} {value : α}
    (h : fields.find? key = some value) : (key, value) ∈ fields := by
  induction fields with
  | nil => simp [find?] at h
  | cons field rest ih =>
    obtain ⟨k, v⟩ := field
    simp only [find?] at h
    split at h
    · cases h; simp_all
    · exact List.mem_cons_of_mem _ (ih h)

end Fields

/-- The object with the given fields; of two with one key the last is kept. -/
def object (fields : List (String × Json)) : Json := obj (Fields.ofList fields)

/-! ### Parts of a value -/

/-- The value of a field of an object. -/
def field? : Json → String → Option Json
  | obj fields, key => Fields.find? fields key
  | _, _ => none

/-- The text of a string. -/
def str? : Json → Option String
  | str s => some s
  | _ => none

/-- Whether a value is an object. -/
def isObject : Json → Bool
  | obj _ => true
  | _ => false

theorem sizeOf_lt_of_field? {j v : Json} {key : String} (h : j.field? key = some v) :
    sizeOf v < sizeOf j := by
  cases j with
  | obj fields => have := Fields.sizeOf_lt_of_find? h; simp; omega
  | _ => simp [field?] at h

/-! ### Equality -/

mutual

/-- Whether two values are equal, numbers being compared as numbers. -/
def same : Json → Json → Bool
  | null, null => true
  | bool a, bool b => a == b
  | num a, num b => a.same b
  | str a, str b => a == b
  | arr xs, arr ys => sameItems xs ys
  | obj xs, obj ys => sameFields xs ys
  | _, _ => false

/-- Whether two arrays have equal items. -/
def sameItems : List Json → List Json → Bool
  | [], [] => true
  | x :: xs, y :: ys => same x y && sameItems xs ys
  | _, _ => false

/-- Whether two objects have equal fields. -/
def sameFields : List (String × Json) → List (String × Json) → Bool
  | [], [] => true
  | (k, x) :: xs, (l, y) :: ys => k == l && same x y && sameFields xs ys
  | _, _ => false

end

/-! ### Nesting -/

mutual

/-- How deep arrays and objects are nested. -/
def depth : Json → Nat
  | arr xs => depthItems xs + 1
  | obj xs => depthFields xs + 1
  | _ => 0

/-- The greatest depth of the items. -/
def depthItems : List Json → Nat
  | [] => 0
  | x :: xs => max (depth x) (depthItems xs)

/-- The greatest depth of the fields. -/
def depthFields : List (String × Json) → Nat
  | [] => 0
  | (_, x) :: xs => max (depth x) (depthFields xs)

end

end Json

end Polyglot
