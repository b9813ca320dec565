import Polyglot.Proofs.Codec.Alike
import Polyglot.Proofs.Codec.Settled

/-!
# Types that are written differently

An instance of a generic type is written as a call or as a descriptor of that call (`Form`).  Both
denote the same and name the same arguments, so it makes no difference which of them is asked for: a
value is encoded alike for types that are built from the same types, one form standing for the other
anywhere in them (`encode_interchangeable`).

This is by induction on how the types are built.  What is encoded for a list, a pair or a map differs
in the type that it names and in its parts, which are alike (`encodesAlike_list`, `encodesAlike_pair`,
`encodesAlike_map`).
-/

namespace Polyglot

namespace Wire

/-! ### Calls and descriptors -/

/-- Whether a type is a call or a descriptor of it, whatever keys that declares. -/
inductive Form (call : Json) : Json → Prop
  | call : Form call call
  | descriptor (declarations : List Json) : Form call (descriptor call declarations)

theorem form_listDescriptor (element : Json) : Form (listOf element) (listDescriptor element) :=
  .descriptor _

theorem form_pairDescriptor (first second : Json) :
    Form (pairOf first second) (pairDescriptor first second) :=
  .descriptor _

namespace Form

variable {call type : Json}

theorem typeId_eq (h : Form call type) : typeId type = typeId call := by
  cases h with
  | call => rfl
  | descriptor declarations => exact typeId_descriptor call declarations

theorem argumentOf?_eq (h : Form call type) (key : String) :
    argumentOf? type key = argumentOf? call key := by
  cases h with
  | call => rfl
  | descriptor declarations => exact argumentOf?_descriptor call declarations key

/-- No form of a call is a bare identifier. -/
theorem referenceForm_eq (h : Form call type) (hcall : referenceForm call = call) :
    referenceForm type = type := by
  cases h with
  | call => exact hcall
  | descriptor declarations => rw [descriptor_eq, referenceForm]; rintro _ ⟨⟩

theorem list_spec {element : Json} (h : Form (listOf element) type) :
    typeId type = .ok TypeId.list ∧ argumentOf? type "Z881K1" = some (referenceForm element) ∧
      referenceForm type = type := by
  refine ⟨?_, ?_, h.referenceForm_eq (by rw [listOf_eq]; rfl)⟩
  · rw [h.typeId_eq, typeId_listOf]
  · rw [h.argumentOf?_eq, argumentOf?_listOf]

theorem pair_spec {first second : Json} (h : Form (pairOf first second) type) :
    typeId type = .ok TypeId.pair ∧ argumentOf? type "Z882K1" = some (referenceForm first) ∧
      argumentOf? type "Z882K2" = some (referenceForm second) ∧ referenceForm type = type := by
  refine ⟨?_, ?_, ?_, h.referenceForm_eq (by rw [pairOf_eq]; rfl)⟩
  · rw [h.typeId_eq, typeId_pairOf]
  · rw [h.argumentOf?_eq, argumentOf?_pairOf_first]
  · rw [h.argumentOf?_eq, argumentOf?_pairOf_second]

theorem map_spec {key value : Json} (h : Form (mapOf key value) type) :
    typeId type = .ok TypeId.map ∧ argumentOf? type "Z883K1" = some (referenceForm key) ∧
      argumentOf? type "Z883K2" = some (referenceForm value) ∧ referenceForm type = type := by
  refine ⟨?_, ?_, ?_, h.referenceForm_eq (by rw [mapOf_eq]; rfl)⟩
  · rw [h.typeId_eq, typeId_mapOf]
  · rw [h.argumentOf?_eq, argumentOf?_mapOf_key]
  · rw [h.argumentOf?_eq, argumentOf?_mapOf_value]

end Form

/-- Whether two types are built from the same types, with lists, pairs and maps at the same places,
each in either form. -/
inductive Interchangeable : Json → Json → Prop
  | same (type : Json) : Interchangeable type type
  | list {element element' type type' : Json} (h : Interchangeable element element')
    (ht : Form (listOf element) type) (ht' : Form (listOf element') type') :
    Interchangeable type type'
  | pair {first first' second second' type type' : Json} (h1 : Interchangeable first first')
    (h2 : Interchangeable second second') (ht : Form (pairOf first second) type)
    (ht' : Form (pairOf first' second') type') : Interchangeable type type'
  | map {key key' value value' type type' : Json} (hk : Interchangeable key key')
    (hv : Interchangeable value value') (ht : Form (mapOf key value) type)
    (ht' : Form (mapOf key' value') type') : Interchangeable type type'

end Wire

namespace Codec

open Traversal

/-- Whether a value is encoded to wire values that decode alike, or for the same reason to none. -/
def EncodesAlike (value : Value) (type type' : Json) : Prop :=
  Alike Eq (DecodesAlike Eq) (builtin.encode value type) (builtin.encode value type')

theorem EncodesAlike.refl (value : Value) (type : Json) : EncodesAlike value type type :=
  Alike.refl (fun _ => rfl) (DecodesAlike.refl fun _ => rfl) _

variable {type type' : Json}

/-- What neither rule takes is refused with one message. -/
theorem EncodesAlike.of_misfit {value : Value} {id : String}
    (h : builtin.step value type = .misfit value id)
    (h' : builtin.step value type' = .misfit value id) : EncodesAlike value type type' := by
  unfold EncodesAlike
  rw [encode_eq, encode_eq, h, h']
  exact .error rfl

/-! ### Lists, pairs and maps -/

theorem encodesAlike_list {element element' : Json} (ht : Wire.Form (Wire.listOf element) type)
    (ht' : Wire.Form (Wire.listOf element') type')
    (h : ∀ value, EncodesAlike value (Wire.referenceForm element) (Wire.referenceForm element'))
    (value : Value) : EncodesAlike value type type' := by
  obtain ⟨hid, ha, -⟩ := ht.list_spec
  obtain ⟨hid', ha', -⟩ := ht'.list_spec
  have hstep := step_of_rule .list hid rfl value
  have hstep' := step_of_rule .list hid' rfl value
  cases value with
  | list items =>
    simp only [ruleStep, ha, ha'] at hstep hstep'
    unfold EncodesAlike
    rw [encode_of_items hstep, encode_of_items hstep']
    have hitems := Alike.mapM (List.forall₂_same.mpr fun item (_ : item ∈ items) => h item)
    refine hitems.bind ?_
    intro wires wires' hwires
    refine .ok ?_
    unfold DecodesAlike
    rw [decode_listWith hid, decode_listWith hid']
    exact alike_items hwires
  | _ => exact .of_misfit hstep hstep'

theorem decodesAlike_pairWire {first first' second second' : Json}
    (hid : Wire.typeId type = .ok TypeId.pair) (hid' : Wire.typeId type' = .ok TypeId.pair)
    (h1 : DecodesAlike Eq first first') (h2 : DecodesAlike Eq second second') :
    DecodesAlike Eq (pairWire type first second) (pairWire type' first' second') := by
  unfold DecodesAlike
  rw [decode_pairWire hid, decode_pairWire hid']
  exact alike_slots h1 h2 _ _

theorem encodesAlike_pair {first first' second second' : Json}
    (ht : Wire.Form (Wire.pairOf first second) type)
    (ht' : Wire.Form (Wire.pairOf first' second') type')
    (h1 : ∀ value, EncodesAlike value (Wire.referenceForm first) (Wire.referenceForm first'))
    (h2 : ∀ value, EncodesAlike value (Wire.referenceForm second) (Wire.referenceForm second'))
    (value : Value) : EncodesAlike value type type' := by
  obtain ⟨hid, ha1, ha2, -⟩ := ht.pair_spec
  obtain ⟨hid', ha1', ha2', -⟩ := ht'.pair_spec
  have hstep := step_of_rule .pair hid rfl value
  have hstep' := step_of_rule .pair hid' rfl value
  cases value with
  | pair a b declared =>
    simp only [ruleStep, slotStep, ha1, ha2, ha1', ha2'] at hstep hstep'
    unfold EncodesAlike
    rw [encode_of_slots hstep, encode_of_slots hstep']
    refine (h1 a).bind ?_
    intro w1 w1' hw1
    refine (h2 b).bind ?_
    intro w2 w2' hw2
    exact .ok (decodesAlike_pairWire hid hid' hw1 hw2)
  | _ => exact .of_misfit hstep hstep'

/-- Whether the keys of two entries decode alike, and their values. -/
def EntryAlike (entry entry' : Json × Json) : Prop :=
  DecodesAlike Eq entry.1 entry'.1 ∧ DecodesAlike Eq entry.2 entry'.2

theorem decodesAlike_mapWire {pairType pairType' : Json} (hid : Wire.typeId type = .ok TypeId.map)
    (hid' : Wire.typeId type' = .ok TypeId.map) (hpair : Wire.typeId pairType = .ok TypeId.pair)
    (hpair' : Wire.typeId pairType' = .ok TypeId.pair) {wires wires' : List (Json × Json)}
    (h : List.Forall₂ EntryAlike wires wires') :
    DecodesAlike Eq (mapWire type pairType wires) (mapWire type' pairType' wires') := by
  unfold DecodesAlike
  rw [decode_mapWire_eq hid, decode_mapWire_eq hid']
  refine alike_entries (fun _ => rfl) ?_
  rw [List.forall₂_map_left_iff, List.forall₂_map_right_iff]
  refine h.imp ?_
  intro w w' hw
  exact decodesAlike_pairWire hpair hpair' hw.1 hw.2

theorem encodesAlike_map {key key' value value' : Json}
    (ht : Wire.Form (Wire.mapOf key value) type) (ht' : Wire.Form (Wire.mapOf key' value') type')
    (hk : ∀ v, EncodesAlike v (Wire.referenceForm key) (Wire.referenceForm key'))
    (hv : ∀ v, EncodesAlike v (Wire.referenceForm value) (Wire.referenceForm value'))
    (v : Value) : EncodesAlike v type type' := by
  obtain ⟨hid, ha1, ha2, -⟩ := ht.map_spec
  obtain ⟨hid', ha1', ha2', -⟩ := ht'.map_spec
  have hstep := step_of_rule .map hid rfl v
  have hstep' := step_of_rule .map hid' rfl v
  cases v with
  | map es =>
    simp only [ruleStep, ha1, ha2, ha1', ha2'] at hstep hstep'
    unfold EncodesAlike
    rw [encode_of_entries hstep, encode_of_entries hstep']
    refine Alike.bind (R := List.Forall₂ EntryAlike) (Alike.mapM (List.forall₂_same.mpr ?_)) ?_
    · intro e _
      refine (hk e.1).bind ?_
      intro k k' hkey
      refine (hv e.2).bind ?_
      intro x x' hvalue
      exact .ok ⟨hkey, hvalue⟩
    · intro wires wires' hwires
      exact .ok (decodesAlike_mapWire hid hid' (Wire.typeId_pairOf ..) (Wire.typeId_pairOf ..) hwires)
  | _ => exact .of_misfit hstep hstep'

/-! ### One form for the other -/

theorem encodesAlike_of_interchangeable (h : Wire.Interchangeable type type') :
    (∀ value, EncodesAlike value type type') ∧
      ∀ value, EncodesAlike value (Wire.referenceForm type) (Wire.referenceForm type') := by
  -- A generic type has its arguments in reference form, and it is in reference form itself.
  induction h with
  | same type => exact ⟨fun value => .refl value _, fun value => .refl value _⟩
  | list _ ht ht' ih =>
    rw [ht.list_spec.2.2, ht'.list_spec.2.2, and_self]
    exact encodesAlike_list ht ht' ih.2
  | pair _ _ ht ht' ih1 ih2 =>
    rw [ht.pair_spec.2.2.2, ht'.pair_spec.2.2.2, and_self]
    exact encodesAlike_pair ht ht' ih1.2 ih2.2
  | map _ _ ht ht' ihk ihv =>
    rw [ht.map_spec.2.2.2, ht'.map_spec.2.2.2, and_self]
    exact encodesAlike_map ht ht' ihk.2 ihv.2

/-- For types that are built from the same types, calls and descriptors standing for each other
anywhere in them, a value is either not encoded, for one and the same reason, or encoded to wire values
that decode to equal native values or, again for one reason, to none. -/
theorem encode_interchangeable (h : Wire.Interchangeable type type') (value : Value) :
    Alike Eq (DecodesAlike Eq) (builtin.encode value type) (builtin.encode value type') :=
  (encodesAlike_of_interchangeable h).1 value

/-- The type of lists of pairs of a text and a truth value, as a descriptor of lists of the call for
pairs. -/
def describedList : Json := Wire.listDescriptor (Wire.pairOf (.str "Z6") (.str "Z40"))

/-- The same type, as the call for lists of the descriptor of pairs. -/
def calledList : Json := Wire.listOf (Wire.pairDescriptor (.str "Z6") (.str "Z40"))

/-- A list of one pair. -/
def onePair : Value := .list [.pair (.text "a") (.flag true) none]

/-- It is encoded for both, to wire values that decode to equal lists. -/
theorem encode_interchangeable_onePair : Wire.Interchangeable describedList calledList ∧
    ∃ wire wire' decoded decoded', builtin.encode onePair describedList = .ok wire ∧
      builtin.encode onePair calledList = .ok wire' ∧ builtin.decode wire = .ok decoded ∧
      builtin.decode wire' = .ok decoded' ∧ decoded.same decoded' = true := by
  have htypes : Wire.Interchangeable describedList calledList :=
    .list (.pair (.same _) (.same _) .call (Wire.form_pairDescriptor ..))
      (Wire.form_listDescriptor _) .call
  have hencode : builtin.encode onePair describedList = .ok (Wire.listWith describedList
      [pairWire (Wire.pairOf (.str "Z6") (.str "Z40")) (Wire.text "a") (booleanWire true)]) :=
    encode_of_encodeWithin (show encodeWithin builtin 4 _ _ = _ by cbv) (by rintro ⟨⟩)
  obtain ⟨wire', hencode', hdecode⟩ :=
    (encode_interchangeable htypes onePair).exists_of_ok hencode
  have hlist : Wire.typeId describedList = .ok TypeId.list :=
    (Wire.form_listDescriptor _).list_spec.1
  have hdecoded := decode_listWith hlist
    [pairWire (Wire.pairOf (.str "Z6") (.str "Z40")) (Wire.text "a") (booleanWire true)]
  rw [List.mapM_cons, decode_pairWire (Wire.typeId_pairOf ..), decode_text, decode_booleanWire]
    at hdecoded
  obtain ⟨decoded', hdecoded', hsame⟩ := Alike.exists_of_ok hdecode hdecoded
  exact ⟨htypes, _, wire', _, decoded', hencode, hencode', hdecoded, hdecoded', hsame⟩

end Codec

end Polyglot
