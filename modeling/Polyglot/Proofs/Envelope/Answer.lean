import Mathlib.Logic.Basic
import Mathlib.Tactic.ByContra
import Mathlib.Tactic.Set
import Polyglot.Proofs.Envelope.Metadata
import Polyglot.Proofs.Envelope.Parsing

/-!
# The answer of a worker with metadata attached

An accepted answer has either a value or an error.  Its error is read in two ways: `metadata?` takes
the first item under `errors` and then asks for its value, while the writer, through `entries`, keeps
only the items with both a key and a value.  So metadata leaves an answer what it is exactly when no
item without a value hides one that has a value (`HidesError`, `setAll_keeps_answer_iff`).
-/

namespace Polyglot.Envelope

/-! ### Entries that hide an error -/

/-- Whether the first item under `errors` has no value and hides a later one with the given error. -/
def Hides (items : List Json) (error : Json) : Prop :=
  ∃ before cover between hidden after,
    items = before ++ cover :: (between ++ hidden :: after) ∧
      (∀ item ∈ before, entryKey? item ≠ some errorKey) ∧
      entryKey? cover = some errorKey ∧ cover.field? "K2" = none ∧
      (∀ item ∈ between, entryKey? item = some errorKey → item.field? "K2" = none) ∧
      entryKey? hidden = some errorKey ∧ hidden.field? "K2" = some error ∧ isVoid error = false

/-- Whether the metadata of an envelope has an error that an entry without a value hides. -/
def HidesError (envelope error : Json) : Prop :=
  ∃ map, envelope.field? "Z22K2" = some map ∧ isMap map = true ∧ Hides (items map) error

/-- The value of the first item under `errors`. -/
def firstError? (items : List Json) : Option Json :=
  (items.find? fun item => entryKey? item = some errorKey).bind (·.field? "K2")

/-- The value under `errors` among the items that have both key and value. -/
def keptError? (items : List Json) : Option Json :=
  Json.Fields.find? (items.filterMap entryPair?) errorKey

theorem firstError?_cons (item : Json) (rest : List Json) : firstError? (item :: rest) =
    if entryKey? item = some errorKey then item.field? "K2" else firstError? rest := by
  unfold firstError?
  rw [List.find?_cons]
  split_ifs with h <;> simp [h]

theorem keptError?_cons (item : Json) (rest : List Json) : keptError? (item :: rest) =
    if entryKey? item = some errorKey then (item.field? "K2").or (keptError? rest)
    else keptError? rest := by
  unfold keptError?
  cases hk : entryKey? item with
  | none => simp [entryPair?, hk]
  | some key =>
    cases hv : item.field? "K2" with
    | none => simp [entryPair?, hk, hv]
    | some value =>
      have hpair : entryPair? item = some (key, value) := by simp [entryPair?, hk, hv]
      rw [List.filterMap_cons_some hpair, Json.Fields.find?]
      simp

/-- The item that the kept error comes from is the first with a value under `errors`. -/
theorem keptError?_eq_some_iff (items : List Json) (error : Json) : keptError? items = some error ↔
    ∃ before kept after, items = before ++ kept :: after ∧
      (∀ item ∈ before, entryKey? item = some errorKey → item.field? "K2" = none) ∧
      entryKey? kept = some errorKey ∧ kept.field? "K2" = some error := by
  induction items with
  | nil =>
    constructor
    · intro h
      cases h
    · rintro ⟨before, kept, after, h, -⟩
      simp at h
  | cons item rest ih =>
    rw [keptError?_cons]
    constructor
    · intro h
      split_ifs at h with hk
      · rcases Option.or_eq_some_iff.mp h with hv | ⟨hv, h⟩
        · exact ⟨[], item, rest, rfl, by simp, hk, hv⟩
        · obtain ⟨before, kept, after, rfl, hb, hkept⟩ := ih.mp h
          refine ⟨item :: before, kept, after, rfl, ?_, hkept⟩
          rintro x hx hxk
          rcases List.mem_cons.mp hx with rfl | hx
          · exact hv
          · exact hb x hx hxk
      · obtain ⟨before, kept, after, rfl, hb, hkept⟩ := ih.mp h
        refine ⟨item :: before, kept, after, rfl, ?_, hkept⟩
        rintro x hx hxk
        rcases List.mem_cons.mp hx with rfl | hx
        · exact absurd hxk hk
        · exact hb x hx hxk
    · rintro ⟨before, kept, after, h, hb, hkept, hv⟩
      cases before with
      | nil =>
        obtain ⟨rfl, rfl⟩ := List.cons.inj h
        rw [if_pos hkept, hv, Option.some_or]
      | cons first before =>
        obtain ⟨rfl, rfl⟩ := List.cons.inj h
        have hrest := ih.mpr ⟨before, kept, after, rfl,
          fun x hx => hb x (List.mem_cons_of_mem _ hx), hkept, hv⟩
        split_ifs with hk
        · rw [hb item List.mem_cons_self hk, Option.none_or, hrest]
        · exact hrest

/-- An error is hidden when it is kept but the first item under `errors` has no value. -/
theorem hides_iff (items : List Json) (error : Json) : Hides items error ↔
    firstError? items = none ∧ keptError? items = some error ∧ isVoid error = false := by
  induction items with
  | nil =>
    constructor
    · rintro ⟨before, cover, between, hidden, after, h, -⟩
      simp at h
    · rintro ⟨-, h, -⟩
      cases h
  | cons item rest ih =>
    rw [firstError?_cons, keptError?_cons]
    constructor
    · rintro ⟨before, cover, between, hidden, after, h, hb, hk, hv, hbetween, hhidden, hval, hvoid⟩
      cases before with
      | nil =>
        obtain ⟨rfl, rfl⟩ := List.cons.inj h
        have hkept := (keptError?_eq_some_iff _ error).mpr
          ⟨between, hidden, after, rfl, hbetween, hhidden, hval⟩
        rw [if_pos hk, if_pos hk, hv, Option.none_or]
        exact ⟨rfl, hkept, hvoid⟩
      | cons first before =>
        obtain ⟨rfl, rfl⟩ := List.cons.inj h
        have hne := hb item List.mem_cons_self
        rw [if_neg hne, if_neg hne]
        exact ih.mp ⟨before, cover, between, hidden, after, rfl,
          fun x hx => hb x (List.mem_cons_of_mem _ hx), hk, hv, hbetween, hhidden, hval, hvoid⟩
    · rintro ⟨hfirst, hkept, hvoid⟩
      split_ifs at hfirst hkept with hk
      · rw [hfirst, Option.none_or] at hkept
        obtain ⟨between, hidden, after, rfl, hbetween, hhidden, hval⟩ :=
          (keptError?_eq_some_iff _ error).mp hkept
        exact ⟨[], item, between, hidden, after, rfl, by simp, hk, hfirst, hbetween, hhidden, hval,
          hvoid⟩
      · obtain ⟨before, cover, between, hidden, after, rfl, hb, hrest⟩ :=
          ih.mpr ⟨hfirst, hkept, hvoid⟩
        refine ⟨item :: before, cover, between, hidden, after, rfl, ?_, hrest⟩
        intro x hx
        rcases List.mem_cons.mp hx with rfl | hx
        · exact hk
        · exact hb x hx

theorem keptError?_of_firstError? {items : List Json} {error : Json}
    (h : firstError? items = some error) : keptError? items = some error := by
  induction items with
  | nil => cases h
  | cons item rest ih =>
    rw [firstError?_cons] at h
    rw [keptError?_cons]
    split_ifs at h ⊢
    · rw [h, Option.some_or]
    · exact ih h

/-! ### The error before and after -/

theorem error?_of_isMap {envelope map : Json} (hslot : envelope.field? "Z22K2" = some map)
    (hmap : isMap map = true) : error? envelope = (firstError? (items map)).filter (!isVoid ·) := by
  have herror : isError map = false := by
    by_contra h
    rw [isMap_eq_false_of_isError (Bool.not_eq_false _ ▸ h)] at hmap
    cases hmap
  have hmeta : metadata? envelope errorKey = firstError? (items map) := by
    simp only [metadata?, hslot, Option.bind_eq_bind, Option.bind_some, hmap, if_true, firstError?,
      items]
    cases map.field? "K1" with
    | none => rfl
    | some list => cases h : Wire.listElements list <;> simp [h, Except.toOption]
  rw [error?, hslot, Option.bind_eq_bind, Option.bind_some, herror, hmeta]
  rfl

/-- Without a map there is nothing to be hidden: an error in the slot itself stays the error, and
otherwise there is none. -/
theorem error?_of_not_isMap {envelope : Json}
    (h : ∀ map, envelope.field? "Z22K2" = some map → isMap map = false) : error? envelope =
      (Json.Fields.find? (pairs envelope) errorKey).filter (!isVoid ·) := by
  cases hslot : envelope.field? "Z22K2" with
  | none =>
    have hpairs : pairs envelope = [] := by
      rw [pairs, hslot]
      cbv
    rw [error?, hslot, hpairs]
    rfl
  | some slot =>
    -- A slot that is no map stands for one entry, or for none.
    have hpairs : pairs envelope = if isError slot then [(errorKey, slot)] else [] := by
      rw [pairs, hslot, Option.getD_some, slotEntries, h slot hslot]
      rfl
    rw [error?, hslot, hpairs, Option.bind_eq_bind, Option.bind_some]
    by_cases he : isError slot = true
    · rw [if_pos he, if_pos he, Json.Fields.find?, if_pos rfl]
      rw [Option.filter_some, isVoid_eq_false_of_isError he]
      rfl
    · rw [if_neg he, if_neg he, metadata?, hslot, Option.bind_eq_bind, Option.bind_some,
        h slot hslot]
      rfl

/-- What is hidden comes to light with the first attachment. -/
theorem error?_setAll_of_hidesError {envelope error : Json} (hobj : envelope.isObject = true)
    {attachments : List (String × Json)} (hne : attachments ≠ [])
    (hkeys : ∀ a ∈ attachments, a.1 ≠ errorKey) (h : HidesError envelope error) :
    error? envelope = none ∧ error? (setAll envelope attachments) = some error := by
  obtain ⟨map, hslot, hmap, hhides⟩ := h
  obtain ⟨hfirst, hkept, hvoid⟩ := (hides_iff _ _).mp hhides
  constructor
  · rw [error?_of_isMap hslot hmap, hfirst]
    rfl
  · have hpairs : Json.Fields.find? (pairs envelope) errorKey = some error := by
      rw [pairs, hslot, Option.getD_some, slotEntries, if_pos hmap, entries_eq]
      exact hkept
    rw [error?_setAll hobj hne hkeys, hpairs]
    simp [hvoid]

theorem error?_setAll_of_not_hidesError {envelope : Json} (hobj : envelope.isObject = true)
    {attachments : List (String × Json)} (hkeys : ∀ a ∈ attachments, a.1 ≠ errorKey)
    (h : ∀ error, ¬ HidesError envelope error) :
    error? (setAll envelope attachments) = error? envelope := by
  by_cases hne : attachments = []
  · rw [hne, setAll_nil]
  rw [error?_setAll hobj hne hkeys]
  by_cases hmap : ∃ map, envelope.field? "Z22K2" = some map ∧ isMap map = true
  · obtain ⟨map, hslot, hmap⟩ := hmap
    have hpairs : Json.Fields.find? (pairs envelope) errorKey = keptError? (items map) := by
      rw [pairs, hslot, Option.getD_some, slotEntries, if_pos hmap, entries_eq]
      rfl
    rw [error?_of_isMap hslot hmap, hpairs]
    cases hfirst : firstError? (items map) with
    | some error => rw [keptError?_of_firstError? hfirst]
    | none =>
      cases hkept : keptError? (items map) with
      | none => rfl
      | some error =>
        -- An error that is kept and is not void would be hidden.
        have hvoid : isVoid error = true := by
          by_contra hv
          exact h error ⟨map, hslot, hmap,
            (hides_iff _ _).mpr ⟨hfirst, hkept, (Bool.not_eq_true _).mp hv⟩⟩
        simp [hvoid]
  · rw [error?_of_not_isMap fun map hslot => ?_]
    by_contra hm
    exact hmap ⟨map, hslot, (Bool.not_eq_false _).mp hm⟩

/-! ### The answer before and after -/

/-- Whether an envelope has a value or an error, and not both. -/
def Exclusive (envelope : Json) : Prop := (value? envelope).isSome ≠ (error? envelope).isSome

theorem Exclusive.of_isAnswer {envelope : Json} (h : isAnswer envelope = true) :
    Exclusive envelope := by
  rw [isAnswer, Bool.and_eq_true, bne_iff_ne] at h
  exact h.2

theorem isAnswer_ofFault (fault : Fault) : isAnswer (ofFault fault) = true := by
  have herror : error? (ofFault fault) = some (makeError fault.code fault.message) := rfl
  have hvalue : value? (ofFault fault) = none := rfl
  have henvelope : isEnvelope (ofFault fault) = true := rfl
  rw [isAnswer, henvelope, herror, hvalue]
  rfl

theorem isMap_void : isMap void = false := by
  show decide ((Wire.typeId (.str TypeId.reference)).toOption = some TypeId.map) = false
  rw [Wire.typeId_str]
  rfl

theorem isAnswer_make {value : Json} (h : isVoid value = false) :
    isAnswer (make (some value) none) = true := by
  have hvalue : value? (make (some value) none) = some value := by
    show (some value).filter (!isVoid ·) = _
    rw [Option.filter_some, h]
    rfl
  have hmetadata : metadata? (make (some value) none) errorKey = none := by
    show (if isMap void = true then _ else none) = _
    rw [isMap_void]
    rfl
  have herror : error? (make (some value) none) = none := by
    show (metadata? (make (some value) none) errorKey).filter _ = none
    rw [hmetadata]
    rfl
  rw [isAnswer, hvalue, herror]
  rfl

theorem isAnswer_envelopeOf_parse (output : String) :
    isAnswer (Dispatch.envelopeOf (parse output)) = true := by
  cases h : parse output with
  | ok answer => exact isAnswer_of_parse h
  | error fault => exact isAnswer_ofFault fault

theorem not_hidesError_ofFault (fault : Fault) (error : Json) :
    ¬ HidesError (ofFault fault) error := by
  rintro ⟨map, hslot, hmap, -⟩
  obtain rfl : makeError fault.code fault.message = map := Option.some.inj hslot
  rw [isMap_eq_false_of_isError rfl] at hmap
  cases hmap

/-- Whatever a worker puts out, metadata leaves the value of its answer as it is, and it leaves its
error as it is, and the answer with either a value or an error, unless an item without a value hides
an error: that error then appears beside the value.  The envelope of a fault hides nothing. -/
theorem setAll_keeps_answer_iff (output : String) (attachments : List (String × Json))
    (hkeys : ∀ a ∈ attachments, a.1 ≠ errorKey) :
    let answer := Dispatch.envelopeOf (parse output)
    let attached := setAll answer attachments
    value? attached = value? answer ∧
      (error? attached = error? answer ↔
        attachments = [] ∨ ∀ error, ¬ HidesError answer error) ∧
      (Exclusive attached ↔ attachments = [] ∨ ∀ error, ¬ HidesError answer error) ∧
      (∀ error, HidesError answer error → attachments ≠ [] → error? attached = some error) ∧
      ((∃ fault, parse output = .error fault) → ∀ error, ¬ HidesError answer error) := by
  intro answer attached
  have hanswer : isAnswer answer = true := isAnswer_envelopeOf_parse output
  have hobj := isObject_of_isAnswer hanswer
  have hexclusive := Exclusive.of_isAnswer hanswer
  have hvalue : value? attached = value? answer := value?_setAll answer attachments
  have hkeep : (attachments = [] ∨ ∀ error, ¬ HidesError answer error) →
      error? attached = error? answer := by
    rintro (rfl | h)
    · rfl
    · exact error?_setAll_of_not_hidesError hobj hkeys h
  -- Otherwise the answer had no error, and has one now.
  have hlost : ¬ (attachments = [] ∨ ∀ error, ¬ HidesError answer error) →
      ∃ error, error? answer = none ∧ error? attached = some error := by
    intro h
    rw [not_or, not_forall_not] at h
    obtain ⟨hne, error, herror⟩ := h
    exact ⟨error, error?_setAll_of_hidesError hobj hne hkeys herror⟩
  refine ⟨hvalue, ⟨?_, hkeep⟩, ⟨?_, ?_⟩, ?_, ?_⟩
  · intro heq
    by_contra h
    obtain ⟨error, hbefore, hafter⟩ := hlost h
    rw [heq, hbefore] at hafter
    cases hafter
  · intro hex
    by_contra h
    obtain ⟨error, hbefore, hafter⟩ := hlost h
    rw [Exclusive, hbefore] at hexclusive
    rw [Exclusive, hvalue, hafter] at hex
    cases hv : value? answer <;> simp [hv] at hexclusive hex
  · intro h
    rw [Exclusive, hvalue, hkeep h]
    exact hexclusive
  · intro error herror hne
    exact (error?_setAll_of_hidesError hobj hne hkeys herror).2
  · rintro ⟨fault, hfault⟩
    have : answer = ofFault fault := by
      show Dispatch.envelopeOf (parse output) = _
      rw [hfault]
      rfl
    rw [this]
    exact not_hidesError_ofFault fault

/-- An answer with a value whose metadata lists a bare entry under `errors` before one with a
value. -/
def hidingAnswer : Json :=
  make (some (Wire.text "ok")) (some (.obj
    [("K1", Wire.listWith (Wire.listOf entryType)
        [.obj [("K1", .str errorKey)], makeEntry errorKey (Wire.text "late")]),
      ("Z1K1", metadataType)]))

theorem parse_hidingAnswer : parse hidingAnswer.render = .ok hidingAnswer :=
  (parse_render_iff (by decide)).mpr ⟨by cbv, by decide, by decide⟩

theorem setAll_keeps_answer_iff_hidingAnswer :
    (∀ a ∈ [("host", Wire.text "a")], a.1 ≠ errorKey) ∧
      (error? (setAll (Dispatch.envelopeOf (parse hidingAnswer.render)) [("host", Wire.text "a")]) =
          error? (Dispatch.envelopeOf (parse hidingAnswer.render)) ↔
        [("host", Wire.text "a")] = [] ∨
          ∀ error, ¬ HidesError (Dispatch.envelopeOf (parse hidingAnswer.render)) error) := by
  have hkeys : ∀ a ∈ [("host", Wire.text "a")], a.1 ≠ errorKey := by
    intro a ha
    rw [List.mem_singleton.mp ha]
    decide
  exact ⟨hkeys, (setAll_keeps_answer_iff hidingAnswer.render _ hkeys).2.1⟩

/-- One entry about the host makes an error appear beside the value of an accepted answer. -/
theorem setAll_shows_hidden_error :
    parse hidingAnswer.render = .ok hidingAnswer ∧
      error? hidingAnswer = none ∧ Exclusive hidingAnswer ∧
      error? (setAll hidingAnswer [("host", Wire.text "a")]) = some (Wire.text "late") ∧
      ¬ Exclusive (setAll hidingAnswer [("host", Wire.text "a")]) := by
  have hbefore : error? hidingAnswer = none := by cbv
  have hvalue : value? hidingAnswer = some (Wire.text "ok") := by cbv
  have hafter : error? (setAll hidingAnswer [("host", Wire.text "a")]) = some (Wire.text "late") := by
    cbv
  refine ⟨parse_hidingAnswer, hbefore, ?_, hafter, ?_⟩
  · rw [Exclusive, hbefore, hvalue]
    decide
  · rw [Exclusive, hafter, value?_setAll, hvalue]
    decide

/-! ### What is reported of a run -/

theorem report_eq_setAll (m : Measurement) (milliseconds : Nat) (sampled : Bool) (answer : Json) :
    Dispatch.report m milliseconds sampled answer =
      setAll answer ((Dispatch.entries m milliseconds ++
        if sampled then Dispatch.workerEntries m else []).map fun (k, v) => (k, Wire.text v)) := by
  rw [setAll, List.foldl_map]
  rfl

/-- What is reported of a run leaves the error of the answer as it is exactly when no item without
a value hides one. -/
theorem error?_report_eq_iff (m : Measurement) (milliseconds : Nat) (sampled : Bool) {answer : Json}
    (h : isAnswer answer = true) :
    error? (Dispatch.report m milliseconds sampled answer) = error? answer ↔
      ∀ error, ¬ HidesError answer error := by
  have hobj := isObject_of_isAnswer h
  rw [report_eq_setAll]
  set attachments := (Dispatch.entries m milliseconds ++
    if sampled then Dispatch.workerEntries m else []).map fun (k, v) => (k, Wire.text v)
    with hattachments
  have hne : attachments ≠ [] := by simp [hattachments, Dispatch.entries]
  have hkeys : ∀ a ∈ attachments, a.1 ≠ errorKey := by
    cases sampled <;>
      simp [hattachments, Dispatch.entries, Dispatch.workerEntries, errorKey]
  constructor
  · intro heq error herror
    obtain ⟨hbefore, hafter⟩ := error?_setAll_of_hidesError hobj hne hkeys herror
    rw [heq, hbefore] at hafter
    cases hafter
  · exact error?_setAll_of_not_hidesError hobj hkeys

end Polyglot.Envelope
