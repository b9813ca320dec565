import Polyglot.Proofs.Association
import Polyglot.Proofs.Envelope.Answer

/-!
# The order of metadata

An envelope that is made with an error or with none and gets metadata lists the error first, if there
is one, and then each key once, in the order in which the keys were first set, with the value that was
set last (`setAll_make_ordered`).  Each attachment rebuilds the map from the entries that it had, so
the entries are the insertions one after another (`setAll_make`).
-/

namespace Polyglot.Envelope

/-! ### Entries as an association list -/

theorem upsert_eq_insert (key : String) (value : Json) (es : List (String × Json)) :
    upsert key value es = Association.insert (· == ·) key value es := by
  induction es with
  | nil => rfl
  | cons e rest ih =>
    obtain ⟨k, v⟩ := e
    simp only [upsert, Association.insert, beq_iff_eq, ih]

theorem find?_eq_find? (es : List (String × Json)) (key : String) :
    Json.Fields.find? es key = Association.find? (· == ·) key es := by
  induction es with
  | nil => rfl
  | cons e rest ih =>
    obtain ⟨k, v⟩ := e
    simp only [Json.Fields.find?, Association.find?, beq_iff_eq, ih]

theorem isKeyTest_beq : Association.IsKeyTest fun a b : String => a == b where
  refl a := beq_self_eq_true a
  symm h := beq_iff_eq.mpr (beq_iff_eq.mp h).symm
  trans h h' := beq_iff_eq.mpr ((beq_iff_eq.mp h).trans (beq_iff_eq.mp h'))

/-- The entries that stand for an error. -/
def errorEntries (error : Option Json) : List (String × Json) :=
  error.toList.map fun e => (errorKey, e)

theorem find?_errorEntries_append (error : Option Json) (es : List (String × Json)) {key : String}
    (h : key ≠ errorKey) :
    Json.Fields.find? (errorEntries error ++ es) key = Json.Fields.find? es key := by
  cases error with
  | none => rfl
  | some e => exact if_neg h.symm

/-- An error stays first when values are put under other keys. -/
theorem foldl_upsert_errorEntries (error : Option Json) {attachments : List (String × Json)}
    (hkeys : ∀ a ∈ attachments, a.1 ≠ errorKey) :
    attachments.foldl (fun es a => upsert a.1 a.2 es) (errorEntries error) =
      errorEntries error ++ Association.ofList (· == ·) attachments := by
  induction attachments using List.reverseRecOn with
  | nil => exact (List.append_nil _).symm
  | append_singleton attachments a ih =>
    obtain ⟨hkeys, ha⟩ := List.forall_mem_append.mp hkeys
    have hne : errorKey ≠ a.1 := (ha a List.mem_cons_self).symm
    rw [List.foldl_append, ih hkeys, Association.ofList_concat, ← upsert_eq_insert]
    cases error with
    | none => rfl
    | some e => exact if_neg hne

/-! ### Envelopes that were made -/

/-- The slot of an envelope that was made with an error or with none. -/
def errorSlot (error : Option (String × String)) : Option Json :=
  error.map fun e => makeError e.1 e.2

theorem slotEntries_errorSlot (error : Option (String × String)) :
    slotEntries ((errorSlot error).getD void) = errorEntries (errorSlot error) := by
  cases error with
  | none =>
    show (if isMap void then _ else if isError void then _ else []) = _
    rw [isMap_void]
    rfl
  | some e =>
    have herror : isError (makeError e.1 e.2) = true := rfl
    show (if isMap (makeError e.1 e.2) then _ else if isError (makeError e.1 e.2) then _ else _) = _
    rw [isMap_eq_false_of_isError herror, herror]
    rfl

theorem isMap_errorSlot (error : Option (String × String)) :
    isMap ((errorSlot error).getD void) = false := by
  cases error with
  | none => exact isMap_void
  | some e => exact isMap_eq_false_of_isError rfl

theorem setMetadata_make (value slot : Option Json) (key : String) (new : Json) :
    setMetadata (make value slot) key new =
      make value (some (makeMap (upsert key new (slotEntries (slot.getD void))))) :=
  rfl

/-- Metadata is put into the map of an envelope that was made, and leaves the rest as it is. -/
theorem setAll_make (value slot : Option Json) {attachments : List (String × Json)}
    (hne : attachments ≠ []) : setAll (make value slot) attachments =
      make value (some (makeMap (attachments.foldl (fun es a => upsert a.1 a.2 es)
        (slotEntries (slot.getD void))))) := by
  induction attachments generalizing slot with
  | nil => exact absurd rfl hne
  | cons a rest ih =>
    rw [setAll_cons, setMetadata_make, List.foldl_cons]
    cases rest with
    | nil => rfl
    | cons b rest =>
      rw [ih _ (List.cons_ne_nil b rest), Option.getD_some, slotEntries, if_pos (isMap_makeMap _),
        entries_makeMap]

/-- Metadata leaves the value and the error of an envelope that was made as they are, with the code
and the message of the error.  The entries are the error, if there is one, and then each key once,
in the order in which the keys were first set, with the value that was set last; this is also what is
found under a key. -/
theorem setAll_make_ordered (value : Option Json) (error : Option (String × String))
    (attachments : List (String × Json)) (hne : attachments ≠ [])
    (hkeys : ∀ a ∈ attachments, a.1 ≠ errorKey) :
    let envelope := make value (errorSlot error)
    let attached := setAll envelope attachments
    (attached.field? "Z22K1" = envelope.field? "Z22K1" ∧ error? attached = error? envelope ∧
        errorCode? attached = errorCode? envelope ∧
        errorMessage? attached = errorMessage? envelope) ∧
      (∃ latest : List (String × Json),
        attached.field? "Z22K2" = some (makeMap (errorEntries (errorSlot error) ++ latest)) ∧
        latest.map (·.1) = (attachments.map (·.1)).eraseDups ∧
        ∀ e ∈ latest, Json.Fields.find? attachments.reverse e.1 = some e.2) ∧
      (∀ key, key ≠ errorKey →
        metadata? attached key = Json.Fields.find? attachments.reverse key) ∧
      metadata? attached errorKey = errorSlot error := by
  intro envelope attached
  set latest := Association.ofList (· == ·) attachments with hlatest
  have hattached : attached = make value (some (makeMap (errorEntries (errorSlot error) ++ latest))) := by
    rw [hlatest, ← foldl_upsert_errorEntries _ hkeys, ← slotEntries_errorSlot]
    exact setAll_make value (errorSlot error) hne
  have hslot : attached.field? "Z22K2" =
      some (makeMap (errorEntries (errorSlot error) ++ latest)) := by
    rw [hattached]
    rfl
  have herror : error? attached = error? envelope := by
    rw [error?_setAll rfl hne hkeys, error?_of_not_isMap]
    intro map hmap
    rw [← Option.some.inj hmap]
    exact isMap_errorSlot error
  have hfind : ∀ key, Json.Fields.find? latest key = Json.Fields.find? attachments.reverse key := by
    intro key
    rw [find?_eq_find?, find?_eq_find?, hlatest, Association.find?_ofList isKeyTest_beq]
  refine ⟨⟨?_, herror, ?_, ?_⟩, ⟨latest, hslot, ?_, ?_⟩, ?_, ?_⟩
  · rw [hattached]
    rfl
  · rw [errorCode?, errorCode?, herror]
  · rw [errorMessage?, errorMessage?, herror]
  · rw [hlatest, Association.keys_ofList isKeyTest_beq]
    exact congrArg (List.eraseDupsBy · _) (funext fun a => funext fun b => Bool.beq_comm)
  · intro e he
    rw [← hfind, find?_eq_find?]
    exact Association.find?_of_mem isKeyTest_beq (Association.differ_ofList attachments) he
  · intro key hkey
    rw [metadata?_of_makeMap hslot, find?_errorEntries_append _ _ hkey, hfind]
  · rw [metadata?_of_makeMap hslot]
    cases error with
    | some e => exact if_pos rfl
    | none =>
      show Json.Fields.find? latest errorKey = none
      rw [hfind, Option.eq_none_iff_forall_ne_some]
      intro v hv
      exact hkeys _ (List.mem_reverse.mp (Json.Fields.mem_of_find? hv)) rfl

/-- Entries of which the first key is set again. -/
def timesAndHost : List (String × Json) :=
  [("start", Wire.text "t0"), ("host", Wire.text "a"), ("start", Wire.text "t1")]

/-- The key that was set twice has its second value, and the error is still that of the envelope. -/
theorem setAll_make_ordered_timesAndHost :
    timesAndHost ≠ [] ∧ (∀ a ∈ timesAndHost, a.1 ≠ errorKey) ∧
      error? (setAll (make none (errorSlot (some ("Z507", "late")))) timesAndHost) =
        some (makeError "Z507" "late") ∧
      metadata? (setAll (make none (errorSlot (some ("Z507", "late")))) timesAndHost) "start" =
        some (Wire.text "t1") := by
  have hne : timesAndHost ≠ [] := List.cons_ne_nil _ _
  have hkeys : ∀ a ∈ timesAndHost, a.1 ≠ errorKey := by decide
  obtain ⟨⟨-, herror, -, -⟩, -, hfound, -⟩ :=
    setAll_make_ordered none (some ("Z507", "late")) timesAndHost hne hkeys
  exact ⟨hne, hkeys, herror, hfound "start" (by decide)⟩

end Polyglot.Envelope
