import Polyglot.Call
import Polyglot.Proofs.Codec.RoundTrip
import Polyglot.Proofs.Json.WellFormed
import Polyglot.Proofs.Request.Binding
import Polyglot.Worker.Service

/-!
# Calls from code to other functions

The object that calls a function from code names the function and has its arguments under keys that
tell their positions.  With the definition of the function put in, it is a call of this function, and
the arguments that are bound are the ones that code has given, in their order, unless a key of theirs
is one that every call has for itself (`bind_expand_callObject_iff`).  This is so for the functions
`Z1` and `Z7`, whose first argument replaces the tag or the function of the call.
-/

namespace Polyglot

namespace Call

open Json (Fields)

/-- Putting the definition in leaves the arguments as they are. -/
theorem arguments_of_expand {definitions : Definitions} {fields : Fields Json} {call : Json}
    (hfields : fields.Ascending) (h : expand definitions (.obj fields) = .ok call) :
    arguments call = arguments (.obj fields) := by
  rw [expand, expandWith] at h
  split at h
  · cases h
  · obtain ⟨function, -, h⟩ := Traversal.bind_eq_ok_iff.mp h
    obtain rfl := Except.ok.inj h
    have htagged := Fields.ascending_insert hfields "Z1K1" (Wire.reference TypeId.call)
    rw [arguments, arguments, Fields.erase_insert_of_ne htagged (by decide),
      Fields.erase_insert_self, Fields.erase_insert_self]

/-- A function that is named is found among the definitions. -/
theorem expand_of_name {definitions : Definitions} {fields : Fields Json} {name : String}
    {function : Json} (hname : fields.find? "Z7K1" = some (.str name))
    (hfind : definitions.find? name = some function) :
    ∃ call, expand definitions (.obj fields) = .ok call ∧ call.field? "Z7K1" = some function := by
  have htarget : target definitions.find? (.str name) = .ok function := by
    have hid : textOf? (.str name) = some name := rfl
    rw [target, if_neg (by exact Bool.false_ne_true)]
    simp only [hid, hfind]
  have hcall : expand definitions (.obj fields) =
      .ok (.obj ((fields.insert "Z1K1" (Wire.reference TypeId.call)).insert "Z7K1" function)) := by
    rw [expand, expandWith, hname]
    show (target definitions.find? (.str name) >>= _) = _
    rw [htarget]
    rfl
  exact ⟨_, hcall, by rw [Json.field?, Fields.find?_insert, if_pos rfl]⟩

/-- The request is for the function of the call. -/
theorem name_request {call function : Json} {name : String}
    (hcall : call.field? "Z7K1" = some function)
    (hname : (function.field? "Z8K5").bind textOf? = some name) (i : Implementation) :
    (request call i).name = some name := by
  have hobj : function.isObject = true := by
    cases function with
    | obj fields => rfl
    | _ => cases hname
  rw [request, function?, hcall, Option.filter_some, if_pos hobj]
  exact hname

end Call

namespace Worker

open Json (Fields)
open Request (Bound)

/-! ### Keys of arguments -/

theorem argumentKey_inj {f g : String} {n m : Nat} :
    argumentKey f n = argumentKey g m ↔ f = g ∧ n = m :=
  Request.append_position_inj

/-- Wire values as arguments, from a position on. -/
def numbered (f : String) (position : Nat) : List Json → List Bound
  | [] => []
  | wire :: wires => ⟨position, argumentKey f position, wire⟩ :: numbered f (position + 1) wires

theorem positions_numbered (f : String) (position : Nat) (wires : List Json) :
    (numbered f position wires).map (·.position) = List.range' position wires.length := by
  induction wires generalizing position with
  | nil => rfl
  | cons wire wires ih => rw [numbered, List.map_cons, ih, List.length_cons, List.range'_succ]

theorem values_numbered (f : String) (position : Nat) (wires : List Json) :
    (numbered f position wires).map (·.value) = wires := by
  induction wires generalizing position with
  | nil => rfl
  | cons wire wires ih => rw [numbered, List.map_cons, ih]

theorem key_of_mem_numbered {f : String} {position : Nat} {wires : List Json} {b : Bound}
    (h : b ∈ numbered f position wires) : b.key = argumentKey f b.position := by
  induction wires generalizing position with
  | nil => cases h
  | cons wire wires ih =>
    rcases List.mem_cons.mp h with rfl | h
    · rfl
    · exact ih h

theorem ascending_numbered (f : String) (position : Nat) (wires : List Json) :
    Bound.Ascending (numbered f position wires) := by
  rw [Bound.Ascending, ← List.pairwise_map, positions_numbered]
  exact List.pairwise_lt_range'

theorem length_numbered (f : String) (position : Nat) (wires : List Json) :
    (numbered f position wires).length = wires.length := by
  rw [← List.length_map (·.value), values_numbered]

/-! ### The object that calls a function -/

/-- The fields that a call has besides its arguments. -/
def ownFields (f : String) : Fields Json := [("Z1K1", .str TypeId.call), ("Z7K1", .str f)]

/-- Fields that are none of those. -/
def foreignFields (fields : List (String × Json)) : List (String × Json) :=
  (fields.filter (·.1 ≠ "Z1K1")).filter (·.1 ≠ "Z7K1")

theorem foreignFields_sublist (fields : List (String × Json)) :
    (foreignFields fields).Sublist fields :=
  List.filter_sublist.trans List.filter_sublist

theorem foreignFields_eq_self_iff {fields : List (String × Json)} :
    foreignFields fields = fields ↔
      ∀ field ∈ fields, field.1 ≠ "Z1K1" ∧ field.1 ≠ "Z7K1" := by
  rw [foreignFields, List.filter_filter, List.filter_eq_self]
  simp only [Bool.and_eq_true, decide_eq_true_eq, and_comm]

/-- The fields of arguments. -/
def boundFields (bound : List Bound) : List (String × Json) := bound.map fun b => (b.key, b.value)

theorem addArguments_eq_ok {f : String} {arguments : List Value} {wires : List Json}
    (h : List.Forall₂ (fun a w => Codec.builtin.encodeAny a = .ok w) arguments wires)
    (fields : Fields Json) (position : Nat) : addArguments f fields position arguments =
      .ok ((boundFields (numbered f position wires)).foldl
        (fun acc field => acc.insert field.1 field.2) fields) := by
  induction h generalizing fields position with
  | nil => rfl
  | cons hwire _ ih =>
    rw [addArguments, hwire]
    exact ih _ _

theorem ascending_ownFields (f : String) : (ownFields f).Ascending :=
  Fields.ascending_of_keys ["Z1K1", "Z7K1"] rfl (by decide)

theorem arguments_call (f : String) (fields : List (String × Json)) :
    Call.arguments (.obj (fields.foldl (fun acc field => Fields.insert field.1 field.2 acc)
      (ownFields f))) = Fields.ofList (foreignFields fields) := by
  have hown := ascending_ownFields f
  have hrest : ((ownFields f).erase "Z1K1").Ascending := hown.filter _
  rw [Call.arguments, Fields.erase_foldl_insert _ _ hown, Fields.erase_foldl_insert _ _ hrest]
  rfl

theorem pairwise_keys_numbered (f : String) (position : Nat) (wires : List Json) :
    (boundFields (numbered f position wires)).Pairwise (·.1 ≠ ·.1) := by
  refine List.pairwise_map.mpr ((ascending_numbered f position wires).imp_of_mem ?_)
  intro a b ha hb hlt hkeys
  rw [key_of_mem_numbered ha, key_of_mem_numbered hb] at hkeys
  exact absurd (argumentKey_inj.mp hkeys).2 (Nat.ne_of_lt hlt)

/-- No argument has a key of the call itself exactly when there is none or the function is another
one than `Z1` and `Z7`. -/
theorem foreignFields_numbered_iff {f : String} {wires : List Json} :
    foreignFields (boundFields (numbered f 1 wires)) = boundFields (numbered f 1 wires) ↔
      wires = [] ∨ f ≠ "Z1" ∧ f ≠ "Z7" := by
  rw [foreignFields_eq_self_iff]
  constructor
  · intro h
    cases wires with
    | nil => exact .inl rfl
    | cons wire wires =>
      obtain ⟨h1, h7⟩ := h (argumentKey f 1, wire) List.mem_cons_self
      exact .inr ⟨fun hf => h1 (congrArg (argumentKey · 1) hf),
        fun hf => h7 (congrArg (argumentKey · 1) hf)⟩
  · rintro (rfl | ⟨hZ1, hZ7⟩) field hfield
    · cases hfield
    · obtain ⟨b, hb, rfl⟩ := List.mem_map.mp hfield
      have hkey : ∀ g, f ≠ g → b.key ≠ argumentKey g 1 := fun g hg heq =>
        hg (argumentKey_inj.mp ((key_of_mem_numbered hb).symm.trans heq)).1
      exact ⟨hkey "Z1" hZ1, hkey "Z7" hZ7⟩

/-! ### What is bound on the other side -/

/-- What is bound are the wire values in their order, exactly when the call keeps them apart from its
own fields and there are not too many of them. -/
theorem bind_foreignFields_iff (f : String) (wires : List Json) :
    Request.bind f (Fields.ofList (foreignFields (boundFields (numbered f 1 wires)))) = .ok wires ↔
      (wires = [] ∨ f ≠ "Z1" ∧ f ≠ "Z7") ∧ wires.length ≤ Request.maxPosition := by
  have hsub := foreignFields_sublist (boundFields (numbered f 1 wires))
  have hperm := Fields.perm_ofList ((pairwise_keys_numbered f 1 wires).sublist hsub)
  have hlength : (boundFields (numbered f 1 wires)).length = wires.length := by
    rw [boundFields, List.length_map, length_numbered]
  have hposition : ∀ b ∈ numbered f 1 wires, Request.position? f b.key =
      if b.position ≤ Request.maxPosition then some b.position else none := fun b hb => by
    rw [key_of_mem_numbered hb]
    exact Request.position?_append f b.position
  constructor
  · intro h
    obtain ⟨hcount, hread⟩ := Request.of_bind_eq_ok h
    -- As many values are bound as there were arguments, so none was left out.
    have hall : foreignFields (boundFields (numbered f 1 wires)) =
        boundFields (numbered f 1 wires) :=
      hsub.eq_of_length (by rw [hlength, hcount, hperm.length_eq])
    refine ⟨foreignFields_numbered_iff.mp hall, ?_⟩
    rcases Nat.eq_zero_or_pos wires.length with hzero | hpos
    · rw [hzero]
      exact Nat.zero_le _
    -- The key of the last argument has been read.
    have hlast : wires.length ∈ (numbered f 1 wires).map (·.position) := by
      rw [positions_numbered, List.mem_range'_1]
      omega
    obtain ⟨b, hb, hbpos⟩ := List.mem_map.mp hlast
    have hfield : (b.key, b.value) ∈ foreignFields (boundFields (numbered f 1 wires)) := by
      rw [hall]
      exact List.mem_map.mpr ⟨b, hb, rfl⟩
    have hbread := hread (b.key, b.value) (hperm.mem_iff.mpr hfield)
    rw [hposition b hb, hbpos] at hbread
    by_contra hgt
    exact hbread (if_neg hgt)
  · rintro ⟨hkept, hle⟩
    rw [foreignFields_numbered_iff.mpr hkept] at hperm ⊢
    rw [Request.bind_eq_ok_of_perm hperm (fun b hb => ?_) (ascending_numbered f 1 wires),
      values_numbered]
    have hb' : b.position ∈ List.range' 1 wires.length :=
      positions_numbered f 1 wires ▸ List.mem_map_of_mem hb
    rw [List.mem_range'_1] at hb'
    rw [hposition b hb, if_pos (by omega)]

/-- The call that code makes reaches the function with the arguments in their order, exactly when
there are no arguments or the function is another one than `Z1` and `Z7`, and no argument is beyond
the largest position. -/
theorem bind_expand_callObject_iff {definitions : Call.Definitions} {f : String} {function : Json}
    {arguments : List Value} {wires : List Json} (hfind : definitions.find? f = some function)
    (hname : (function.field? "Z8K5").bind Call.textOf? = some f)
    (hwires : List.Forall₂ (fun a w => Codec.builtin.encodeAny a = .ok w) arguments wires) :
    ∃ object, callObject f arguments = .ok object ∧
      ((∃ call, Call.expand definitions object = .ok call ∧ call.field? "Z7K1" = some function ∧
        ∀ i, (Call.request call i).name = some f ∧
          Request.bind f (Call.request call i).arguments = .ok wires) ↔
      (arguments = [] ∨ f ≠ "Z1" ∧ f ≠ "Z7") ∧ arguments.length ≤ Request.maxPosition) := by
  let written := boundFields (numbered f 1 wires)
  let fields := written.foldl (fun acc field => Fields.insert field.1 field.2 acc) (ownFields f)
  have hobject : callObject f arguments = .ok (.obj fields) := by
    rw [callObject]
    exact congrArg (·.map Json.obj) (addArguments_eq_ok hwires (ownFields f) 1)
  have hfields : Fields.Ascending fields :=
    Fields.ascending_foldl_insert written (ascending_ownFields f)
  have harguments : ∀ call, Call.expand definitions (.obj fields) = .ok call →
      Call.arguments call = Fields.ofList (foreignFields written) := fun call hcall =>
    (Call.arguments_of_expand hfields hcall).trans (arguments_call f written)
  have hnil : arguments = [] ↔ wires = [] := by
    rw [← List.length_eq_zero_iff, ← List.length_eq_zero_iff, hwires.length_eq]
  rw [hnil, hwires.length_eq]
  refine ⟨.obj fields, hobject, ?_, ?_⟩
  · rintro ⟨call, hcall, -, hreq⟩
    have hbind := (hreq ⟨"", none⟩).2
    rw [Call.request, harguments call hcall] at hbind
    exact (bind_foreignFields_iff f wires).mp hbind
  · intro h
    -- No argument is under the key of the function, so the name is still there.
    have hZ7K1 : Fields.find? fields "Z7K1" = some (.str f) := by
      have hkept := foreignFields_eq_self_iff.mp (foreignFields_numbered_iff.mpr h.1)
      have hno : ∀ field ∈ written, field.1 ≠ "Z7K1" := fun field hfield => (hkept field hfield).2
      rw [Fields.find?_foldl_insert hno]
      rfl
    obtain ⟨call, hcall, hfunction⟩ := Call.expand_of_name hZ7K1 hfind
    refine ⟨call, hcall, hfunction, fun i => ⟨Call.name_request hfunction hname i, ?_⟩⟩
    rw [Call.request, harguments call hcall]
    exact (bind_foreignFields_iff f wires).mpr h

/-- The definition of a function that has a name only. -/
def namedFunction (name : String) : Json := .obj [("Z8K5", .str name)]

/-- A call with two texts reaches its function. -/
theorem bind_expand_callObject_iff_twoTexts :
    ∃ object, callObject "Z2000" [.text "a", .text "b"] = .ok object ∧
      ∃ call, Call.expand [("Z2000", namedFunction "Z2000")] object = .ok call ∧
        call.field? "Z7K1" = some (namedFunction "Z2000") ∧
        ∀ i, (Call.request call i).name = some "Z2000" ∧
          Request.bind "Z2000" (Call.request call i).arguments =
            .ok [Wire.text "a", Wire.text "b"] := by
  have hwires : List.Forall₂ (fun a w => Codec.builtin.encodeAny a = .ok w)
      [.text "a", .text "b"] [Wire.text "a", Wire.text "b"] :=
    .cons (Codec.encodeAny_eq _) (.cons (Codec.encodeAny_eq _) .nil)
  have hfind : Fields.find? [("Z2000", namedFunction "Z2000")] "Z2000" =
      some (namedFunction "Z2000") := rfl
  obtain ⟨object, hobject, hiff⟩ := bind_expand_callObject_iff hfind rfl hwires
  exact ⟨object, hobject, hiff.mpr ⟨.inr ⟨by decide, by decide⟩, by decide⟩⟩

/-- A call of `Z7` with a reference to another function is a call of this other function, without
arguments. -/
theorem expand_callObject_otherFunction : ∃ object call,
    Codec.builtin.encodeAny (.reference "Z2000") = .ok (Wire.reference "Z2000") ∧
      callObject "Z7" [.reference "Z2000"] = .ok object ∧
      Call.expand [("Z2000", namedFunction "Z2000"), ("Z7", namedFunction "Z7")] object = .ok call ∧
      call.field? "Z7K1" = some (namedFunction "Z2000") ∧
      ∀ i, (Call.request call i).name = some "Z2000" ∧
        Request.bind "Z7" (Call.request call i).arguments = .ok [] := by
  have hwire : Codec.builtin.encodeAny (.reference "Z2000") = .ok (Wire.reference "Z2000") :=
    Codec.encodeAny_eq _
  have hobject : callObject "Z7" [.reference "Z2000"] =
      .ok (.obj [("Z1K1", .str "Z7"), ("Z7K1", Wire.reference "Z2000")]) := by
    rw [callObject, addArguments, hwire]
    rfl
  exact ⟨_, _, hwire, hobject, rfl, rfl, fun i => ⟨rfl, rfl⟩⟩

end Worker

end Polyglot
