import Polyglot.Proofs.Json.WellFormed
import Polyglot.Wire.GenericType

/-!
# Generic types and lists on the wire

What the readers of types make of the types that are built: `typeId`, `idOfTag?` and `argumentOf?`
of references, calls and descriptors.  A list that is built from elements has these elements
(`listElements_listWith`).
-/

namespace Polyglot.Wire

/-! ### Bare identifiers and references -/

@[simp] theorem typeId_str (s : String) : typeId (.str s) = .ok s := by rw [typeId]

@[simp] theorem typeId_reference (id : String) : typeId (reference id) = .ok id := by
  rw [reference, typeId]
  rfl

/-- A tag that is bare or a reference denotes what it names. -/
theorem typeId_of_idOfTag? {tag : Json} {id : String} (h : idOfTag? tag = some id) :
    typeId tag = .ok id := by
  cases tag with
  | str s =>
    obtain rfl := Option.some.inj h
    exact typeId_str s
  | obj fields =>
    rw [idOfTag?] at h
    split_ifs at h with href
    obtain ⟨v, hv, hstr⟩ := Option.bind_eq_some_iff.mp href
    have htag : (Json.Fields.find? fields "Z1K1").bind idOfTag? = some TypeId.reference := by
      cases v with
      | str s =>
        obtain rfl := Option.some.inj hstr
        rw [hv]
        rfl
      | _ => cases hstr
    rw [typeId, htag]
    simp only [if_true, h]
  | _ => cases h

/-- What an object denotes, by its tag and the field that this leads to. -/
theorem typeId_obj_eq (fields : Json.Fields Json) : typeId (.obj fields) =
    match (fields.find? "Z1K1").bind idOfTag? with
    | none => .error (.unknownType (Json.obj fields).render)
    | some tag =>
      if tag = TypeId.reference then
        match (fields.find? "Z9K1").bind Json.str? with
        | some id => .ok id
        | none => .error (.unknownType (Json.obj fields).render)
      else
        match (nextTypeField? tag).bind fields.find? with
        | some next => typeId next
        | none => .error (.unknownType (Json.obj fields).render) := by
  rw [typeId]
  cases (Json.Fields.find? fields "Z1K1").bind idOfTag? with
  | none => rfl
  | some tag =>
    dsimp only
    split
    · rfl
    · cases nextTypeField? tag with
      | none => rfl
      | some key =>
        simp only [Option.bind_some]
        split
        · rename_i h
          rw [h]
        · rename_i h
          rw [h]

/-- An object with the tag of a call, a descriptor or a function denotes what its next field
denotes. -/
theorem typeId_obj (tag next : Json) {fields : Json.Fields Json} {id key : String}
    (htag : fields.find? "Z1K1" = some tag) (hid : idOfTag? tag = some id)
    (hne : id ≠ TypeId.reference) (hkey : nextTypeField? id = some key)
    (hnext : fields.find? key = some next) : typeId (.obj fields) = typeId next := by
  rw [typeId_obj_eq, htag, Option.bind_some, hid]
  simp only [if_neg hne, hkey, Option.bind_some, hnext]

/-! ### Calls -/

theorem listOf_eq (element : Json) : listOf element =
    .obj [("Z1K1", reference TypeId.call), ("Z7K1", reference TypeId.list),
      ("Z881K1", referenceForm element)] := by
  refine congrArg Json.obj (Json.Fields.ofList_of_ascending ?_)
  exact Json.Fields.ascending_of_keys ["Z1K1", "Z7K1", "Z881K1"] rfl (by decide)

theorem pairOf_eq (first second : Json) : pairOf first second =
    .obj [("Z1K1", reference TypeId.call), ("Z7K1", reference TypeId.pair),
      ("Z882K1", referenceForm first), ("Z882K2", referenceForm second)] := by
  refine congrArg Json.obj (Json.Fields.ofList_of_ascending ?_)
  exact Json.Fields.ascending_of_keys ["Z1K1", "Z7K1", "Z882K1", "Z882K2"] rfl (by decide)

theorem mapOf_eq (key value : Json) : mapOf key value =
    .obj [("Z1K1", reference TypeId.call), ("Z7K1", reference TypeId.map),
      ("Z883K1", referenceForm key), ("Z883K2", referenceForm value)] := by
  refine congrArg Json.obj (Json.Fields.ofList_of_ascending ?_)
  exact Json.Fields.ascending_of_keys ["Z1K1", "Z7K1", "Z883K1", "Z883K2"] rfl (by decide)

@[simp] theorem typeId_listOf (element : Json) : typeId (listOf element) = .ok TypeId.list := by
  rw [listOf_eq, typeId_obj (reference TypeId.call) (reference TypeId.list) rfl rfl (by decide)
    rfl rfl, typeId_reference]

@[simp] theorem typeId_pairOf (first second : Json) :
    typeId (pairOf first second) = .ok TypeId.pair := by
  rw [pairOf_eq, typeId_obj (reference TypeId.call) (reference TypeId.pair) rfl rfl (by decide)
    rfl rfl, typeId_reference]

@[simp] theorem typeId_mapOf (key value : Json) : typeId (mapOf key value) = .ok TypeId.map := by
  rw [mapOf_eq, typeId_obj (reference TypeId.call) (reference TypeId.map) rfl rfl (by decide)
    rfl rfl, typeId_reference]

/-- The arguments of a call are its fields. -/
theorem argumentOf?_call (fields : Json.Fields Json) (key : String) :
    argumentOf? (.obj (("Z1K1", reference TypeId.call) :: fields)) key =
      Json.Fields.find? (("Z1K1", reference TypeId.call) :: fields) key := by
  rw [argumentOf?]
  rfl

@[simp] theorem argumentOf?_listOf (element : Json) :
    argumentOf? (listOf element) "Z881K1" = some (referenceForm element) := by
  rw [listOf_eq, argumentOf?_call]
  rfl

@[simp] theorem argumentOf?_pairOf_first (first second : Json) :
    argumentOf? (pairOf first second) "Z882K1" = some (referenceForm first) := by
  rw [pairOf_eq, argumentOf?_call]
  rfl

@[simp] theorem argumentOf?_pairOf_second (first second : Json) :
    argumentOf? (pairOf first second) "Z882K2" = some (referenceForm second) := by
  rw [pairOf_eq, argumentOf?_call]
  rfl

@[simp] theorem argumentOf?_mapOf_key (key value : Json) :
    argumentOf? (mapOf key value) "Z883K1" = some (referenceForm key) := by
  rw [mapOf_eq, argumentOf?_call]
  rfl

@[simp] theorem argumentOf?_mapOf_value (key value : Json) :
    argumentOf? (mapOf key value) "Z883K2" = some (referenceForm value) := by
  rw [mapOf_eq, argumentOf?_call]
  rfl

/-! ### Descriptors -/

theorem descriptor_eq (call : Json) (declarations : List Json) : descriptor call declarations =
    .obj [("Z1K1", reference TypeId.type), ("Z4K1", call),
      ("Z4K2", listWith (listOf (reference TypeId.key)) declarations),
      ("Z4K3", reference TypeId.validator)] := by
  refine congrArg Json.obj (Json.Fields.ofList_of_ascending ?_)
  exact Json.Fields.ascending_of_keys ["Z1K1", "Z4K1", "Z4K2", "Z4K3"] rfl (by decide)

/-- A descriptor denotes what its call denotes. -/
@[simp] theorem typeId_descriptor (call : Json) (declarations : List Json) :
    typeId (descriptor call declarations) = typeId call := by
  rw [descriptor_eq]
  exact typeId_obj (reference TypeId.type) call rfl rfl (by decide) rfl rfl

/-- The arguments of a descriptor are those of its call. -/
@[simp] theorem argumentOf?_descriptor (call : Json) (declarations : List Json) (key : String) :
    argumentOf? (descriptor call declarations) key = argumentOf? call key := by
  rw [descriptor_eq, argumentOf?]
  rfl

/-! ### Lists -/

@[simp] theorem cellHead?_listCell (type head tail : Json) :
    cellHead? (listCell type head tail) = some head := rfl

@[simp] theorem cellTail?_listCell (type head tail : Json) :
    cellTail? (listCell type head tail) = some tail := rfl

theorem listElements_end {cell : Json} (hobj : cell.isObject = true)
    (hhead : cellHead? cell = none) : listElements cell = .ok [] := by
  rw [listElements, if_pos hobj, hhead]

/-- The elements of a list are read cell by cell. -/
theorem listElements_obj_eq (fields : Json.Fields Json) : listElements (.obj fields) =
    match cellHead? (.obj fields) with
    | none => .ok []
    | some head =>
      match cellTail? (.obj fields) with
      | none => .ok [head]
      | some tail => (listElements tail).map (head :: ·) := by
  rw [listElements, if_pos (show (Json.obj fields).isObject = true from rfl)]
  cases cellHead? (.obj fields) with
  | none => rfl
  | some head =>
    dsimp only
    split
    · rename_i h
      rw [h]
    · rename_i h
      rw [h]

/-- A cell with a head and a tail has the head before the elements of the tail. -/
theorem listElements_cell (cell tail : Json) {head : Json} (hobj : cell.isObject = true)
    (hhead : cellHead? cell = some head) (htail : cellTail? cell = some tail) :
    listElements cell = (listElements tail).map (head :: ·) := by
  rw [listElements, if_pos hobj, hhead]
  simp only
  split
  · rename_i h
    rw [htail] at h
    contradiction
  · rename_i h
    rw [htail] at h
    obtain rfl := Option.some.inj h
    rfl

/-- A typed list has the elements that it was built from. -/
@[simp] theorem listElements_listWith (type : Json) (elements : List Json) :
    listElements (listWith type elements) = .ok elements := by
  induction elements with
  | nil => exact listElements_end rfl rfl
  | cons head rest ih =>
    show listElements (listCell type head (listWith type rest)) = _
    rw [listElements_cell _ _ rfl (cellHead?_listCell ..) (cellTail?_listCell ..), ih]
    rfl

end Polyglot.Wire
