import Polyglot.Wire.Basic

/-!
# Generic types

An instance of a generic type is the call of a type function, `listOf`, `pairOf` or `mapOf`, or the
descriptor that this call evaluates to, which also declares the keys of its objects. Either may stand
wherever a type is expected.

Typed lists are chains of cells with a head `K1` and a tail `K2`; `listElements` reads these and the
cells of old lists.
-/

namespace Polyglot.Wire

/-- The call of a type function. -/
def genericCall (generic : String) (arguments : List (String × Json)) : Json :=
  Json.object
    (("Z1K1", reference TypeId.call) :: ("Z7K1", reference generic) ::
      arguments.map fun (key, argument) => (key, referenceForm argument))

/-- The type of lists of an element type. -/
def listOf (element : Json) : Json := genericCall TypeId.list [("Z881K1", element)]

/-- The type of pairs of two types. -/
def pairOf (first second : Json) : Json :=
  genericCall TypeId.pair [("Z882K1", first), ("Z882K2", second)]

/-- The type of maps from a type to a type. -/
def mapOf (key value : Json) : Json := genericCall TypeId.map [("Z883K1", key), ("Z883K2", value)]

/-! ### Lists -/

/-- The last cell of a typed list, which has no head. -/
def listEnd (type : Json) : Json := .obj [("Z1K1", type)]

/-- A cell of a typed list. -/
def listCell (type head tail : Json) : Json := .obj [("K1", head), ("K2", tail), ("Z1K1", type)]

/-- The typed list of elements that are on the wire already. -/
def listWith (type : Json) (elements : List Json) : Json :=
  elements.foldr (listCell type) (listEnd type)

/-- The head of a cell of a typed or an old list. -/
def cellHead? (cell : Json) : Option Json := (cell.field? "K1").or (cell.field? "Z10K1")

/-- The tail of a cell of a typed or an old list. -/
def cellTail? (cell : Json) : Option Json := (cell.field? "K2").or (cell.field? "Z10K2")

theorem sizeOf_lt_of_cellHead? {cell head : Json} (h : cellHead? cell = some head) :
    sizeOf head < sizeOf cell := by
  unfold cellHead? at h
  rcases Option.or_eq_some_iff.1 h with h | ⟨_, h⟩ <;> exact Json.sizeOf_lt_of_field? h

theorem sizeOf_lt_of_cellTail? {cell tail : Json} (h : cellTail? cell = some tail) :
    sizeOf tail < sizeOf cell := by
  unfold cellTail? at h
  rcases Option.or_eq_some_iff.1 h with h | ⟨_, h⟩ <;> exact Json.sizeOf_lt_of_field? h

/-- The elements of a typed or an old list. It ends with the first cell that lacks a head or a
tail. -/
def listElements (cell : Json) : Except CodecError (List Json) :=
  if cell.isObject then
    match cellHead? cell with
    | none => .ok []
    | some head =>
      match _h : cellTail? cell with
      | none => .ok [head]
      | some tail => (listElements tail).map (head :: ·)
  else .error (.decode ("malformed list cell " ++ cell.render))
termination_by sizeOf cell
decreasing_by exact sizeOf_lt_of_cellTail? _h

/-- The elements of a list are smaller than the list. -/
theorem sizeOf_lt_of_mem_listElements {cell : Json} {items : List Json}
    (h : listElements cell = .ok items) : ∀ x ∈ items, sizeOf x < sizeOf cell := by
  fun_induction listElements cell generalizing items with
  | case1 cell ho hn => cases h; simp
  | case2 cell ho head hh ht => cases h; simpa using sizeOf_lt_of_cellHead? hh
  | case3 cell ho head hh tail ht ih =>
    cases hi : listElements tail with
    | error e => rw [hi] at h; cases h
    | ok rest =>
      rw [hi] at h; cases h
      intro x hx
      rcases List.mem_cons.1 hx with rfl | hx
      · exact sizeOf_lt_of_cellHead? hh
      · exact Nat.lt_trans (ih hi x hx) (sizeOf_lt_of_cellTail? ht)
  | case4 cell ho => cases h

/-! ### Descriptors -/

/-- The declaration of a key: its type, its name and an empty list of labels. -/
def declareKey (type : Json) (name : String) : Json :=
  Json.object
    [("Z1K1", reference TypeId.key), ("Z3K1", referenceForm type), ("Z3K2", text name),
      ("Z3K3", Json.object
        [("Z1K1", reference TypeId.multilingual),
          ("Z12K1", listWith (listOf (reference TypeId.monolingual)) [])])]

/-- The descriptor of the type that a call yields. -/
def descriptor (call : Json) (declarations : List Json) : Json :=
  Json.object
    [("Z1K1", reference TypeId.type), ("Z4K1", call),
      ("Z4K2", listWith (listOf (reference TypeId.key)) declarations),
      ("Z4K3", reference TypeId.validator)]

/-- The descriptor of `listOf`, with the keys of a cell. -/
def listDescriptor (element : Json) : Json :=
  let call := listOf element
  descriptor call [declareKey element "K1", declareKey call "K2"]

/-- The descriptor of `pairOf`, with the keys of the two slots. -/
def pairDescriptor (first second : Json) : Json :=
  descriptor (pairOf first second) [declareKey first "K1", declareKey second "K2"]

/-- The descriptor of `mapOf`, with the key of its list of pairs. -/
def mapDescriptor (key value : Json) : Json :=
  descriptor (mapOf key value) [declareKey (listOf (pairOf key value)) "K1"]

end Polyglot.Wire
