import Mathlib.Tactic.SplitIfs
import Polyglot.Dispatch
import Polyglot.Proofs.Wire.GenericType

/-!
# Metadata beside the value or the error of an envelope

Values set one after another (`setAll`) leave the value of an envelope as it is (`value?_setAll`),
and what it then has for an error is what the entries of its slot had under `errors` before
(`error?_setAll`).
-/

namespace Polyglot.Envelope

/-- The envelope with values set one after another. -/
def setAll (envelope : Json) (attachments : List (String × Json)) : Json :=
  attachments.foldl (fun e (key, value) => setMetadata e key value) envelope

/-! ### Entries and maps -/

@[simp] theorem entryKey?_makeEntry (key : String) (value : Json) :
    entryKey? (makeEntry key value) = some key :=
  rfl

@[simp] theorem entryPair?_makeEntry (key : String) (value : Json) :
    entryPair? (makeEntry key value) = some (key, value) :=
  rfl

/-- The items of a metadata map, with or without key and value. -/
def items (map : Json) : List Json :=
  ((map.field? "K1").bind fun list => (Wire.listElements list).toOption).getD []

theorem entries_eq (map : Json) : entries map = (items map).filterMap entryPair? := by
  unfold entries items
  cases map.field? "K1" with
  | none => rfl
  | some list => cases h : Wire.listElements list <;> simp [h, Except.toOption]

@[simp] theorem items_makeMap (es : List (String × Json)) :
    items (makeMap es) = es.map fun (k, v) => makeEntry k v := by
  show ((some (Wire.listWith _ _)).bind _).getD [] = _
  rw [Option.bind_some, Wire.listElements_listWith]
  rfl

/-- The entries of a map are those that it was built from. -/
@[simp] theorem entries_makeMap (es : List (String × Json)) : entries (makeMap es) = es := by
  rw [entries_eq, items_makeMap]
  induction es with
  | nil => rfl
  | cons e rest ih => simp [ih]

@[simp] theorem isMap_makeMap (es : List (String × Json)) : isMap (makeMap es) = true := by
  show decide ((Wire.typeId metadataType).toOption = some TypeId.map) = true
  rw [metadataType, Wire.typeId_mapOf]
  rfl

@[simp] theorem isError_makeMap (es : List (String × Json)) : isError (makeMap es) = false := by
  show decide (Wire.idOfTag? metadataType = some TypeId.error) = false
  rw [metadataType, Wire.mapOf_eq]
  rfl

/-- An error is no map. -/
theorem isMap_eq_false_of_isError {slot : Json} (h : isError slot = true) : isMap slot = false := by
  obtain ⟨tag, htag, hid⟩ := Option.bind_eq_some_iff.mp (of_decide_eq_true h)
  unfold isMap
  simp only [htag, Wire.typeId_of_idOfTag? hid]
  decide

/-- An error is something. -/
theorem isVoid_eq_false_of_isError {slot : Json} (h : isError slot = true) :
    isVoid slot = false := by
  obtain ⟨tag, htag, hid⟩ := Option.bind_eq_some_iff.mp (of_decide_eq_true h)
  cases slot with
  | obj fields =>
    -- A reference has the tag `Z9` in the place of the tag of an error.
    have hne : (Json.Fields.find? fields "Z1K1").bind Json.str? ≠ some TypeId.reference := by
      intro href
      obtain ⟨other, hother, hstr⟩ := Option.bind_eq_some_iff.mp href
      obtain rfl := Option.some.inj (htag.symm.trans hother)
      cases tag with
      | str s =>
        rw [Option.some.inj hstr] at hid
        exact absurd hid (by decide)
      | _ => cases hstr
    simp [isVoid, Wire.idOfTag?, hne]
  | _ => cases htag

/-! ### Setting a value -/

/-- The entries that an envelope's slot stands for. -/
def pairs (envelope : Json) : List (String × Json) :=
  slotEntries ((envelope.field? "Z22K2").getD void)

theorem find?_upsert (es : List (String × Json)) (key other : String) (value : Json) :
    Json.Fields.find? (upsert key value es) other =
      if key = other then some value else Json.Fields.find? es other := by
  induction es with
  | nil => rfl
  | cons e rest ih =>
    obtain ⟨k, v⟩ := e
    unfold upsert
    split_ifs with hk hother hother
    · rw [Json.Fields.find?, if_pos (hk.trans hother)]
    · rw [Json.Fields.find?, Json.Fields.find?, if_neg (hk ▸ hother), if_neg (hk ▸ hother)]
    · rw [Json.Fields.find?, if_neg (hother ▸ hk), ih, if_pos hother]
    · rw [Json.Fields.find?, Json.Fields.find?, ih, if_neg hother]

theorem field?_setMetadata_of_ne (envelope : Json) (key : String) (value : Json) {name : String}
    (h : name ≠ "Z22K2") : (setMetadata envelope key value).field? name = envelope.field? name := by
  cases envelope with
  | obj fields =>
    show Json.Fields.find? _ name = _
    rw [Json.Fields.find?_insert, if_neg (Ne.symm h)]
    rfl
  | _ => rfl

@[simp] theorem isObject_setMetadata (envelope : Json) (key : String) (value : Json) :
    (setMetadata envelope key value).isObject = envelope.isObject := by
  cases envelope <;> rfl

theorem field?_setMetadata {envelope : Json} (h : envelope.isObject = true) (key : String)
    (value : Json) : (setMetadata envelope key value).field? "Z22K2" =
      some (makeMap (upsert key value (pairs envelope))) := by
  cases envelope with
  | obj fields =>
    show Json.Fields.find? _ "Z22K2" = _
    rw [Json.Fields.find?_insert, if_pos rfl]
    rfl
  | _ => cases h

theorem pairs_setMetadata {envelope : Json} (h : envelope.isObject = true) (key : String)
    (value : Json) :
    pairs (setMetadata envelope key value) = upsert key value (pairs envelope) := by
  rw [pairs, field?_setMetadata h, Option.getD_some, slotEntries, if_pos (isMap_makeMap _),
    entries_makeMap]

/-- The metadata of an envelope whose slot is a map of entries. -/
theorem metadata?_of_makeMap {envelope : Json} {es : List (String × Json)}
    (h : envelope.field? "Z22K2" = some (makeMap es)) (key : String) :
    metadata? envelope key = Json.Fields.find? es key := by
  have hlist : (makeMap es).field? "K1" =
      some (Wire.listWith (Wire.listOf entryType) (es.map fun (k, v) => makeEntry k v)) := rfl
  have hitems : ((es.map fun (k, v) => makeEntry k v).find? fun e => entryKey? e = some key).bind
      (·.field? "K2") = Json.Fields.find? es key := by
    clear h hlist
    induction es with
    | nil => rfl
    | cons e rest ih =>
      obtain ⟨k, v⟩ := e
      rw [List.map_cons, List.find?_cons, entryKey?_makeEntry, Json.Fields.find?]
      by_cases hk : k = key
      · simp only [hk, decide_true, if_true]
        rfl
      · simp only [Option.some.injEq, hk, decide_false, if_false]
        exact ih
  simp only [metadata?, h, Option.bind_eq_bind, Option.bind_some, isMap_makeMap, if_true, hlist,
    Wire.listElements_listWith]
  exact hitems

/-! ### Setting values one after another -/

@[simp] theorem setAll_nil (envelope : Json) : setAll envelope [] = envelope := rfl

theorem setAll_cons (envelope : Json) (a : String × Json) (rest : List (String × Json)) :
    setAll envelope (a :: rest) = setAll (setMetadata envelope a.1 a.2) rest :=
  rfl

/-- Attaching metadata leaves the value as it is. -/
theorem value?_setAll (envelope : Json) (attachments : List (String × Json)) :
    value? (setAll envelope attachments) = value? envelope := by
  induction attachments generalizing envelope with
  | nil => rfl
  | cons a rest ih =>
    rw [setAll_cons, ih, value?, value?, field?_setMetadata_of_ne _ _ _ (by decide)]

/-- What an envelope with attachments has under `errors` is what its entries had there before. -/
theorem error?_setAll {envelope : Json} (hobj : envelope.isObject = true)
    {attachments : List (String × Json)} (hne : attachments ≠ [])
    (hkeys : ∀ a ∈ attachments, a.1 ≠ errorKey) : error? (setAll envelope attachments) =
      (Json.Fields.find? (pairs envelope) errorKey).filter (!isVoid ·) := by
  induction attachments generalizing envelope with
  | nil => exact absurd rfl hne
  | cons a rest ih =>
    have ha : a.1 ≠ errorKey := hkeys a List.mem_cons_self
    rw [setAll_cons]
    cases rest with
    | nil =>
      have hslot := field?_setMetadata hobj a.1 a.2
      rw [setAll_nil, error?, metadata?_of_makeMap hslot, hslot, find?_upsert, if_neg ha]
      simp
    | cons b rest =>
      rw [ih ((isObject_setMetadata ..).trans hobj) (List.cons_ne_nil b rest)
        (fun x hx => hkeys x (List.mem_cons_of_mem _ hx)), pairs_setMetadata hobj, find?_upsert,
        if_neg ha]

end Polyglot.Envelope
