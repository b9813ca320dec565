import Polyglot.Codec.Encoding
import Polyglot.Proofs.Codec.Decoding
import Polyglot.Proofs.Codec.Step
import Polyglot.Proofs.Value.Declared

/-!
# Properties that go with the parts of objects

`Json.Compositional` is about properties of JSON values that an object has exactly when its parts have
them, as being well-formed is.  Neither decoding nor encoding loses such a property
(`Json.Compositional.everyDeclared_decode`, `Json.Compositional.encode`): the types that a decoded
value declares have it if the wire value has, and what a value is encoded to has it if the types do
that are declared and asked for.
-/

namespace Polyglot

namespace Json

/-- Whether a property goes with the parts of objects. -/
structure Compositional (P : Json → Prop) : Prop where
  /-- It holds of null. -/
  null : P .null
  /-- It holds of strings. -/
  str (s : String) : P (.str s)
  /-- It holds of an object of parts that have it. -/
  obj {fields : Fields Json} (hk : fields.Ascending) (h : ∀ f ∈ fields, P f.2) : P (.obj fields)
  /-- It holds of the parts of an object that has it. -/
  part {fields : Fields Json} (h : P (.obj fields)) {f : String × Json} (hf : f ∈ fields) : P f.2

theorem compositional_wellFormed : Compositional WellFormed where
  null := .null
  str := .str
  obj := .obj
  part h f hf := by
    cases h with
    | obj _ h => exact h f hf

namespace Compositional

variable {P : Json → Prop}

theorem find? (hP : Compositional P) {fields : Fields Json} (h : P (.obj fields)) {key : String}
    {v : Json} (hv : fields.find? key = some v) : P v :=
  hP.part h (Fields.mem_of_find? hv)

theorem field? (hP : Compositional P) {j : Json} (h : P j) {key : String} {v : Json}
    (hv : j.field? key = some v) : P v := by
  cases j with
  | obj fields => exact hP.find? h hv
  | _ => cases hv

theorem object (hP : Compositional P) {fields : List (String × Json)} (h : ∀ f ∈ fields, P f.2) :
    P (Json.object fields) :=
  hP.obj (Fields.ascending_ofList fields) fun f hf => h f (Fields.mem_ofList hf)

/-! ### Types -/

theorem reference (hP : Compositional P) (id : String) : P (Wire.reference id) :=
  hP.obj (Fields.ascending_of_keys ["Z1K1", "Z9K1"] rfl (by decide)) (by simp [hP.str])

theorem text (hP : Compositional P) (s : String) : P (Wire.text s) :=
  hP.obj (Fields.ascending_of_keys ["Z1K1", "Z6K1"] rfl (by decide)) (by simp [hP.str])

theorem referenceForm (hP : Compositional P) {type : Json} (h : P type) :
    P (Wire.referenceForm type) := by
  cases type with
  | str s => exact hP.reference s
  | _ => exact h

theorem genericCall (hP : Compositional P) (generic : String) {arguments : List (String × Json)}
    (h : ∀ a ∈ arguments, P a.2) : P (Wire.genericCall generic arguments) := by
  refine hP.object ?_
  simp only [List.forall_mem_cons, List.forall_mem_map]
  exact ⟨hP.reference _, hP.reference _, fun a ha => hP.referenceForm (h a ha)⟩

theorem listOf (hP : Compositional P) {element : Json} (h : P element) : P (Wire.listOf element) :=
  hP.genericCall _ (by simpa using h)

theorem pairOf (hP : Compositional P) {first second : Json} (h1 : P first) (h2 : P second) :
    P (Wire.pairOf first second) :=
  hP.genericCall _ (by simpa using ⟨h1, h2⟩)

theorem mapOf (hP : Compositional P) {key value : Json} (hk : P key) (hv : P value) :
    P (Wire.mapOf key value) :=
  hP.genericCall _ (by simpa using ⟨hk, hv⟩)

theorem argumentOf? (hP : Compositional P) {type : Json} (h : P type) {key : String} {v : Json}
    (hv : Wire.argumentOf? type key = some v) : P v := by
  -- Either the call itself has the argument, or the call that a descriptor names.
  fun_induction Wire.argumentOf? type key with
  | case2 => exact hP.find? h hv
  | case3 fields call hcall _ _ ih => exact ih (hP.find? h hcall) hv
  | _ => cases hv

theorem tagOf (hP : Compositional P) {wire : Json} (h : P wire) : P (Codec.tagOf wire) := by
  rw [Codec.tagOf]
  cases hfield : wire.field? "Z1K1" with
  | none => exact hP.null
  | some tag => exact hP.field? h hfield

theorem sharedType (hP : Compositional P) {tags : List Json} (h : ∀ tag ∈ tags, P tag) :
    P (Codec.sharedType tags) := by
  unfold Codec.sharedType
  split
  · exact hP.reference _
  · split
    · exact hP.referenceForm (h _ List.mem_cons_self)
    · exact hP.reference _

/-! ### Wire forms -/

theorem unitWire (hP : Compositional P) : P Codec.unitWire :=
  hP.obj (List.pairwise_singleton ..) (by simp [hP.reference])

theorem booleanWire (hP : Compositional P) (b : Bool) : P (Codec.booleanWire b) :=
  hP.obj (Fields.ascending_of_keys ["Z1K1", "Z40K1"] rfl (by decide)) (by simp [hP.reference])

theorem codePointWire (hP : Compositional P) (s : String) : P (Codec.codePointWire s) :=
  hP.obj (Fields.ascending_of_keys ["Z1K1", "Z86K1"] rfl (by decide))
    (by simp [hP.reference, hP.text])

theorem pairWire (hP : Compositional P) {type first second : Json} (ht : P type) (h1 : P first)
    (h2 : P second) : P (Codec.pairWire type first second) :=
  hP.obj (Fields.ascending_of_keys ["K1", "K2", "Z1K1"] rfl (by decide)) (by simp [ht, h1, h2])

theorem listWith (hP : Compositional P) {type : Json} (ht : P type) {elements : List Json}
    (h : ∀ x ∈ elements, P x) : P (Wire.listWith type elements) := by
  induction elements with
  | nil => exact hP.obj (List.pairwise_singleton ..) (by simpa using ht)
  | cons head rest ih =>
    obtain ⟨hhead, hrest⟩ := List.forall_mem_cons.mp h
    have htail : P (Wire.listWith type rest) := ih hrest
    exact hP.obj (Fields.ascending_of_keys ["K1", "K2", "Z1K1"] rfl (by decide))
      (by simpa using ⟨hhead, htail, ht⟩)

theorem oldListWire (hP : Compositional P) {elements : List Json} (h : ∀ x ∈ elements, P x) :
    P (Codec.oldListWire elements) := by
  induction elements with
  | nil => exact hP.obj (List.pairwise_singleton ..) (by simp [hP.reference])
  | cons head rest ih =>
    obtain ⟨hhead, hrest⟩ := List.forall_mem_cons.mp h
    have htail : P (Codec.oldListWire rest) := ih hrest
    exact hP.obj (Fields.ascending_of_keys ["Z10K1", "Z10K2", "Z1K1"] rfl (by decide))
      (by simpa using ⟨hhead, htail, hP.reference _⟩)

theorem mapWire (hP : Compositional P) {type pairType : Json} (ht : P type) (hp : P pairType)
    {entries : List (Json × Json)} (h : ∀ e ∈ entries, P e.1 ∧ P e.2) :
    P (Codec.mapWire type pairType entries) := by
  have hpairs : P (Wire.listWith (Wire.listOf pairType)
      (entries.map fun e => Codec.pairWire pairType e.1 e.2)) := by
    refine hP.listWith (hP.listOf hp) fun x hx => ?_
    obtain ⟨e, he, rfl⟩ := List.mem_map.mp hx
    exact hP.pairWire hp (h e he).1 (h e he).2
  exact hP.obj (Fields.ascending_of_keys ["K1", "Z1K1"] rfl (by decide))
    (by simpa using ⟨hpairs, ht⟩)

theorem inferredList (hP : Compositional P) {elements : List Json} (h : ∀ x ∈ elements, P x) :
    P (Codec.inferredList elements) := by
  refine hP.listWith (hP.listOf (hP.sharedType ?_)) h
  exact List.forall_mem_map.mpr fun x hx => hP.tagOf (h x hx)

theorem inferredPair (hP : Compositional P) {first second : Json} (h1 : P first) (h2 : P second) :
    P (Codec.inferredPair first second) :=
  hP.pairWire (hP.pairOf (hP.tagOf h1) (hP.tagOf h2)) h1 h2

theorem inferredMap (hP : Compositional P) {entries : List (Json × Json)}
    (h : ∀ e ∈ entries, P e.1 ∧ P e.2) : P (Codec.inferredMap entries) := by
  have hkey : P (Codec.sharedType (entries.map fun e => Codec.tagOf e.1)) :=
    hP.sharedType (List.forall_mem_map.mpr fun e he => hP.tagOf (h e he).1)
  have hvalue : P (Codec.sharedType (entries.map fun e => Codec.tagOf e.2)) :=
    hP.sharedType (List.forall_mem_map.mpr fun e he => hP.tagOf (h e he).2)
  exact hP.mapWire (hP.mapOf hkey hvalue) (hP.pairOf hkey hvalue) h

theorem listElements (hP : Compositional P) {cell : Json} (h : P cell) {items : List Json}
    (hitems : Wire.listElements cell = .ok items) : ∀ x ∈ items, P x := by
  have hhead : ∀ {cell head : Json}, P cell → Wire.cellHead? cell = some head → P head := by
    intro cell head h hh
    rw [Wire.cellHead?, Option.or_eq_some_iff] at hh
    rcases hh with hh | ⟨-, hh⟩ <;> exact hP.field? h hh
  have htail : ∀ {cell tail : Json}, P cell → Wire.cellTail? cell = some tail → P tail := by
    intro cell tail h ht
    rw [Wire.cellTail?, Option.or_eq_some_iff] at ht
    rcases ht with ht | ⟨-, ht⟩ <;> exact hP.field? h ht
  fun_induction Wire.listElements cell generalizing items with
  | case1 cell _ _ =>
    obtain rfl := Except.ok.inj hitems
    rintro _ ⟨⟩
  | case2 cell _ head hh _ =>
    obtain rfl := Except.ok.inj hitems
    exact fun x hx => List.mem_singleton.mp hx ▸ hhead h hh
  | case3 cell _ head hh tail ht ih =>
    cases hrest : Wire.listElements tail with
    | error e =>
      rw [hrest] at hitems
      cases hitems
    | ok rest =>
      rw [hrest] at hitems
      obtain rfl := Except.ok.inj hitems
      exact List.forall_mem_cons.mpr ⟨hhead h hh, ih (htail h ht) hrest⟩
  | case4 => cases hitems

end Compositional

end Json

namespace Codec

variable {P : Json → Prop}

/-! ### Decoding -/

theorem everyDeclared_valueOfId (id : String) : (valueOfId id).EveryDeclared P := by
  unfold valueOfId
  split_ifs
  · exact .flag true
  · exact .flag false
  · exact .unit
  · exact .reference id

theorem everyDeclared_bareValue (s : String) : (bareValue s).EveryDeclared P := by
  unfold bareValue
  split_ifs
  · exact everyDeclared_valueOfId s
  · exact .text s

theorem everyDeclared_decodeText {wire : Json} {v : Value} (h : decodeText wire = .ok v) :
    v.EveryDeclared P := by
  cases wire with
  | str s => exact Except.ok.inj h ▸ .text s
  | _ =>
    rw [decodeText] at h
    · obtain ⟨s, -, rfl⟩ := Traversal.map_eq_ok_iff.mp h
      exact .text s
    · rintro _ ⟨⟩

theorem everyDeclared_decodeBoolean {wire : Json} {v : Value} (h : decodeBoolean wire = .ok v) :
    v.EveryDeclared P := by
  obtain ⟨field, -, h⟩ := Traversal.bind_eq_ok_iff.mp h
  obtain ⟨id, -, h⟩ := Traversal.bind_eq_ok_iff.mp h
  split_ifs at h
  · exact Except.ok.inj h ▸ .flag true
  · exact Except.ok.inj h ▸ .flag false

theorem everyDeclared_foldlM_insertPair {items : List Json}
    (hdec : ∀ item ∈ items, ∀ v, builtin.decode item = .ok v → v.EveryDeclared P)
    {acc entries : Value.Entries} (hacc : acc.EveryDeclared P)
    (h : items.foldlM (fun entries item => do insertPair entries (← builtin.decode item)) acc =
      .ok entries) : entries.EveryDeclared P := by
  induction items generalizing acc with
  | nil => exact Except.ok.inj h ▸ hacc
  | cons item items ih =>
    obtain ⟨hitem, hitems⟩ := List.forall_mem_cons.mp hdec
    rw [List.foldlM_cons] at h
    obtain ⟨acc', hacc', h⟩ := Traversal.bind_eq_ok_iff.mp h
    obtain ⟨v, hv, hins⟩ := Traversal.bind_eq_ok_iff.mp hacc'
    refine ih hitems ?_ h
    cases hitem v hv with
    | pair h1 h2 _ => exact Except.ok.inj hins ▸ hacc.insert h1 h2
    | _ => cases hins

/-- No rule known by name decodes to a fixed value. -/
theorem builtin_decoders_ne_always (id : String) (v : Value) :
    builtin.decoders.find? id ≠ some (.always v) := by
  intro h
  have hmem := Json.Fields.mem_ofList (Json.Fields.mem_of_find? h)
  simp at hmem

/-- A rule that is not for a fixed value keeps what decoding the parts of the object keeps. -/
theorem everyDeclared_objectValue (hP : Json.Compositional P) {fields : Json.Fields Json}
    (h : P (.obj fields)) {rule : Option DecodeRule} (hrule : ∀ v, rule ≠ some (.always v))
    (hdec : ∀ wire, sizeOf wire < sizeOf (Json.obj fields) → P wire → ∀ v,
      builtin.decode wire = .ok v → v.EveryDeclared P) {v : Value}
    (hv : objectValue builtin.decode fields rule = .ok v) : v.EveryDeclared P := by
  have htype : ∀ type, fields.find? "Z1K1" = some type → P type := fun type ht => hP.find? h ht
  have hitems : ∀ {cell items}, sizeOf cell ≤ sizeOf (Json.obj fields) → P cell →
      Wire.listElements cell = .ok items → ∀ item ∈ items, ∀ v, builtin.decode item = .ok v →
        v.EveryDeclared P := by
    intro cell items hcell hc hl item hitem
    have hlt := Wire.sizeOf_lt_of_mem_listElements hl item hitem
    exact hdec item (Nat.lt_of_lt_of_le hlt hcell) (hP.listElements hc hl item hitem)
  have hrequired : ∀ {key part}, requiredField (.obj fields) key = .ok part → P part := by
    intro key part hpart
    rw [requiredField] at hpart
    split at hpart
    · obtain rfl := Except.ok.inj hpart
      exact hP.field? h ‹_›
    · cases hpart
  cases rule with
  | none =>
    obtain ⟨values, hvalues, hv⟩ := Traversal.bind_eq_ok_iff.mp hv
    obtain rfl := Except.ok.inj hv
    -- The declared type is a part of the object, and so is what each field is decoded from.
    refine .record htype (Traversal.forall_mem_of_mapM_eq_ok hvalues fun f hf value hvalue => ?_)
    obtain ⟨u, hu, hvalue⟩ := Traversal.bind_eq_ok_iff.mp hvalue
    obtain rfl := Except.ok.inj hvalue
    have hlt := sizeOf_lt_of_mem_erase hf
    have hpart := hP.part h (List.mem_filter.mp hf).1
    exact hdec _ (by simp; omega) hpart u hu
  | some rule =>
    cases rule with
    | text =>
      rw [objectValue] at hv
      exact everyDeclared_decodeText hv
    | reference =>
      obtain ⟨id, -, rfl⟩ := Traversal.map_eq_ok_iff.mp hv
      exact everyDeclared_valueOfId id
    | list =>
      obtain ⟨items, hl, hv⟩ := Traversal.bind_eq_ok_iff.mp hv
      obtain ⟨values, hvalues, hv⟩ := Traversal.bind_eq_ok_iff.mp hv
      obtain rfl := Except.ok.inj hv
      exact .list (Traversal.forall_mem_of_mapM_eq_ok hvalues (hitems (Nat.le_refl _) h hl))
    | unit => exact Except.ok.inj hv ▸ .unit
    | boolean => exact everyDeclared_decodeBoolean hv
    | codePoint =>
      obtain ⟨part, -, hv⟩ := Traversal.bind_eq_ok_iff.mp hv
      exact everyDeclared_decodeText hv
    | pair =>
      obtain ⟨k1, hk1, hv⟩ := Traversal.bind_eq_ok_iff.mp hv
      obtain ⟨first, hfirst, hv⟩ := Traversal.bind_eq_ok_iff.mp hv
      obtain ⟨k2, hk2, hv⟩ := Traversal.bind_eq_ok_iff.mp hv
      obtain ⟨second, hsecond, hv⟩ := Traversal.bind_eq_ok_iff.mp hv
      obtain rfl := Except.ok.inj hv
      exact .pair (hdec k1 (sizeOf_lt_of_requiredField hk1) (hrequired hk1) first hfirst)
        (hdec k2 (sizeOf_lt_of_requiredField hk2) (hrequired hk2) second hsecond) htype
    | map =>
      rw [objectValue] at hv
      split at hv
      · obtain rfl := Except.ok.inj hv
        exact .map (by simp) (by simp)
      · rename_i pairs hpairs
        obtain ⟨items, hl, hv⟩ := Traversal.bind_eq_ok_iff.mp hv
        obtain ⟨entries, hentries, hv⟩ := Traversal.bind_eq_ok_iff.mp hv
        obtain rfl := Except.ok.inj hv
        have hle : sizeOf pairs ≤ sizeOf (Json.obj fields) :=
          Nat.le_of_lt (Json.sizeOf_lt_of_field? (j := .obj fields) hpairs)
        have hnil : Value.Entries.EveryDeclared P [] := by rintro _ ⟨⟩
        -- All entries are decoded from items of the list of pairs, which is a part of the object.
        have hall := everyDeclared_foldlM_insertPair (hitems hle (hP.find? h hpairs) hl) hnil
          hentries
        exact .map (fun e he => (hall e he).1) fun e he => (hall e he).2
    | always fixed => exact absurd rfl (hrule fixed)
    | refuse detail => cases hv
    | within key =>
      rw [objectValue] at hv
      split at hv
      · cases hv
      · rename_i part hpart
        exact hdec part (Json.sizeOf_lt_of_field? (j := .obj fields) hpart) (hP.find? h hpart) v hv

end Codec

namespace Json.Compositional

variable {P : Json → Prop}

/-- The types that a decoded value declares are parts of the wire value, by induction on its size. -/
theorem everyDeclared_decode (hP : Compositional P) {wire : Json} (h : P wire) {v : Value}
    (hv : Codec.builtin.decode wire = .ok v) : v.EveryDeclared P := by
  cases wire with
  | str s =>
    rw [Codec.decode] at hv
    obtain rfl := Except.ok.inj hv
    exact Codec.everyDeclared_bareValue s
  | obj fields =>
    cases hid : Wire.typeOf (.obj fields) with
    | error e =>
      rw [Codec.decode, hid] at hv
      cases hv
    | ok id =>
      rw [Codec.decode_obj hid] at hv
      refine Codec.everyDeclared_objectValue hP h (Codec.builtin_decoders_ne_always id) ?_ hv
      exact fun part hlt hpart u hu => everyDeclared_decode hP hpart hu
  | _ =>
    rw [Codec.decode] at hv
    · cases hv
    · rintro _ ⟨⟩
    · rintro _ ⟨⟩
termination_by sizeOf wire

end Json.Compositional

namespace Codec

variable {P : Json → Prop}

/-! ### Encoding -/

/-- What a step has to do so that the property is not lost: the types that it asks for and those that
its parts declare have it, and so has what is built from wire values that have it. -/
def Step.Keeps (P : Json → Prop) : Step → Prop
  | .done result => ∀ wire, result = .ok wire → P wire
  | .handOn type finish => P type ∧ ∀ wire, P wire → P (finish wire)
  | .items values type finish => (P type ∧ ∀ v ∈ values, v.EveryDeclared P) ∧
    ∀ wires, (∀ w ∈ wires, P w) → P (finish wires)
  | .slots first second firstType secondType finish =>
    (P firstType ∧ P secondType ∧ first.EveryDeclared P ∧ second.EveryDeclared P) ∧
    ∀ w1 w2, P w1 → P w2 → P (finish w1 w2)
  | .entries es keyType valueType finish =>
    (P keyType ∧ P valueType ∧ Value.Entries.EveryDeclared P es) ∧
    ∀ wires, (∀ w ∈ wires, P w.1 ∧ P w.2) → P (finish wires)
  | .fields fs finish =>
    (∀ f ∈ fs, P f.2.2 ∧ ∀ v, f.2.1 = .ok v → v.EveryDeclared P) ∧
    ∀ wires, (∀ w ∈ wires, P w.2) → P (finish wires)

theorem keeps_ok {wire : Json} (h : P wire) : (Step.done (.ok wire)).Keeps P :=
  fun _ hw => Except.ok.inj hw ▸ h

theorem keeps_misfit (value : Value) (id : String) : (Step.misfit value id).Keeps P := by
  rintro _ ⟨⟩

theorem slotStep_keeps (hP : Json.Compositional P) {first second : Value}
    (h1 : first.EveryDeclared P) (h2 : second.EveryDeclared P) {type : Json}
    (ht : type = .null ∨ P type) : (slotStep first second type).Keeps P := by
  have hinferred : (Step.slots first second (Wire.reference TypeId.any) (Wire.reference TypeId.any)
      inferredPair).Keeps P :=
    ⟨⟨hP.reference _, hP.reference _, h1, h2⟩, fun _ _ hw1 hw2 => hP.inferredPair hw1 hw2⟩
  rcases ht with rfl | ht
  · rw [slotStep, Wire.argumentOf?]
    · exact hinferred
    · rintro _ ⟨⟩
  · unfold slotStep
    split
    · rename_i harg1 harg2
      exact ⟨⟨hP.argumentOf? ht harg1, hP.argumentOf? ht harg2, h1, h2⟩,
        fun _ _ hw1 hw2 => hP.pairWire ht hw1 hw2⟩
    · exact hinferred

theorem inferredStep_keeps (hP : Json.Compositional P) {value : Value}
    (h : value.EveryDeclared P) : (inferredStep value).Keeps P := by
  cases h with
  | text s => exact keeps_ok (hP.text s)
  | reference id => exact keeps_ok (hP.reference id)
  | flag b => exact keeps_ok (hP.booleanWire b)
  | unit => exact keeps_ok hP.unitWire
  | list h => exact ⟨⟨hP.reference _, h⟩, fun _ hw => hP.inferredList hw⟩
  | @pair first second declared h1 h2 h =>
    refine slotStep_keeps hP h1 h2 ?_
    cases declared with
    | none => exact .inl rfl
    | some type => exact .inr (h type rfl)
  | map hk hv =>
    exact ⟨⟨hP.reference _, hP.reference _, fun e he => ⟨hk e he, hv e he⟩⟩,
      fun _ hw => hP.inferredMap hw⟩
  | @record declared fields h hf =>
    rw [inferredStep]
    split
    -- What is asked for next is the type that the record declares.
    · rename_i type hd
      exact ⟨h type (Option.filter_eq_some_iff.mp hd).1, fun _ hw => hw⟩
    · rintro _ ⟨⟩

/-- The type of a declared key is a field of its declaration. -/
theorem field?_of_keyOfDeclaration {declaration : Json} {key : String × Json}
    (h : keyOfDeclaration declaration = .ok key) : declaration.field? "Z3K1" = some key.2 := by
  rw [keyOfDeclaration] at h
  split at h
  · split at h
    · obtain rfl := Except.ok.inj h
      assumption
    · cases h
  · split at h
    · split at h
      · obtain rfl := Except.ok.inj h
        assumption
      · cases h
    · cases h
  · cases h

/-- The types of declared keys are parts of the descriptor. -/
theorem keysOfType?_keeps (hP : Json.Compositional P) {type : Json} (ht : P type)
    {keys : List (String × Json)} (h : keysOfType? type = .ok (some keys)) :
    ∀ key ∈ keys, P key.2 := by
  rw [keysOfType?] at h
  split at h
  · cases h
  · split at h
    · cases h
    · rename_i declarations hdecl
      obtain ⟨items, hitems, h⟩ := Traversal.bind_eq_ok_iff.mp h
      obtain ⟨keys', hkeys, h⟩ := Traversal.bind_eq_ok_iff.mp h
      obtain rfl := Option.some.inj (Except.ok.inj h)
      refine Traversal.forall_mem_of_mapM_eq_ok hkeys fun item hitem key hkey => ?_
      -- A declaration is an item of a list in the descriptor, and its type is a field of it.
      have hpart := hP.listElements (hP.field? ht hdecl) hitems item hitem
      exact hP.field? hpart (field?_of_keyOfDeclaration hkey)

theorem recordStep_keeps (hP : Json.Compositional P) {value : Value} (h : value.EveryDeclared P)
    {type : Json} (ht : P type) (id : String) : (recordStep value type id).Keeps P := by
  have hfinish : ∀ wires : List (String × Json), (∀ w ∈ wires, P w.2) →
      P (Json.object (("Z1K1", type) :: wires)) := fun wires hw =>
    hP.object (List.forall_mem_cons.mpr ⟨ht, hw⟩)
  cases h with
  | record _ hf =>
    rw [recordStep]
    split
    · rintro _ ⟨⟩
    · rename_i keys hkeys
      refine ⟨fun f hmem => ?_, hfinish⟩
      obtain ⟨key, hkey, rfl⟩ := List.mem_map.mp hmem
      refine ⟨keysOfType?_keeps hP ht hkeys key hkey, fun v hv => ?_⟩
      dsimp only at hv
      split at hv
      · obtain rfl := Except.ok.inj hv
        exact hf _ (Json.Fields.mem_of_find? ‹_›)
      · cases hv
    · refine ⟨fun f hmem => ?_, hfinish⟩
      obtain ⟨field, hfield, rfl⟩ := List.mem_map.mp hmem
      exact ⟨hP.reference _, fun v hv => Except.ok.inj hv ▸ hf field hfield⟩
  | _ => exact keeps_misfit _ _

/-- Every rule keeps the property, unless it is for a fixed wire value that lacks it. -/
theorem ruleStep_keeps (hP : Json.Compositional P) {value : Value} (h : value.EveryDeclared P)
    {type : Json} (ht : P type) {rule : EncodeRule} (hrule : ∀ wire, rule = .always wire → P wire) :
    (ruleStep value type rule).Keeps P := by
  cases rule with
  | inferred => exact inferredStep_keeps hP h
  | text =>
    cases h with
    | text s => exact keeps_ok (hP.text s)
    | _ => exact keeps_misfit _ _
  | reference =>
    cases h with
    | reference id => exact keeps_ok (hP.reference id)
    | text s =>
      rw [ruleStep]
      split_ifs
      · exact keeps_ok (hP.reference s)
      · exact keeps_misfit _ _
    | _ => exact keeps_misfit _ _
  | oldList =>
    cases h with
    | list h => exact ⟨⟨hP.reference _, h⟩, fun _ hw => hP.oldListWire hw⟩
    | _ => exact keeps_misfit _ _
  | unit =>
    cases h with
    | unit => exact keeps_ok hP.unitWire
    | _ => exact keeps_misfit _ _
  | sentinel target =>
    cases h with
    | unit => exact keeps_ok (hP.reference target)
    | _ => exact keeps_misfit _ _
  | boolean =>
    cases h with
    | flag b => exact keeps_ok (hP.booleanWire b)
    | _ => exact keeps_misfit _ _
  | codePoint =>
    cases h with
    | text s =>
      rw [ruleStep]
      split_ifs
      · exact keeps_ok (hP.codePointWire s)
      · exact keeps_misfit _ _
    | _ => exact keeps_misfit _ _
  | list =>
    cases h with
    | list h =>
      rw [ruleStep]
      split
      · rename_i harg
        exact ⟨⟨hP.argumentOf? ht harg, h⟩, fun _ hw => hP.listWith ht hw⟩
      · exact ⟨⟨hP.reference _, h⟩, fun _ hw => hP.inferredList hw⟩
    | _ => exact keeps_misfit _ _
  | pair =>
    cases h with
    | pair h1 h2 _ => exact slotStep_keeps hP h1 h2 (.inr ht)
    | _ => exact keeps_misfit _ _
  | map =>
    cases h with
    | map hk hv =>
      rw [ruleStep]
      split
      · rename_i harg1 harg2
        have hkey := hP.argumentOf? ht harg1
        have hvalue := hP.argumentOf? ht harg2
        exact ⟨⟨hkey, hvalue, fun e he => ⟨hk e he, hv e he⟩⟩,
          fun _ hw => hP.mapWire ht (hP.pairOf hkey hvalue) hw⟩
      · exact ⟨⟨hP.reference _, hP.reference _, fun e he => ⟨hk e he, hv e he⟩⟩,
          fun _ hw => hP.inferredMap hw⟩
    | _ => exact keeps_misfit _ _
  | always wire => exact keeps_ok (hrule wire rfl)
  | refuse detail => rintro _ ⟨⟩
  | within key =>
    refine ⟨hP.reference _, fun wire hw => hP.object ?_⟩
    simpa using ⟨ht, hw⟩

theorem step_keeps (hP : Json.Compositional P) {value : Value} (h : value.EveryDeclared P)
    {type : Json} (ht : P type) : (builtin.step value type).Keeps P := by
  rw [step]
  split
  · rintro _ ⟨⟩
  · split
    · rename_i rule hrule
      refine ruleStep_keeps hP h ht ?_
      rintro wire rfl
      have hmem := builtin_encoder_mem hrule
      simp at hmem
    · exact recordStep_keeps hP h ht _

/-- A step that keeps the property builds a wire value that has it, if the wire values of its parts
have it. -/
theorem Step.Keeps.run {value : Value} {s : Step} (hs : s.Keeps P) (hbelow : s.Below (sizeOf value))
    {enc next : Value → Json → Except EncodeFailure Json}
    (henc : ∀ v t w, sizeOf v < sizeOf value → v.EveryDeclared P → P t → enc v t = .ok w → P w)
    (hnext : ∀ t w, P t → next value t = .ok w → P w)
    {wire : Json} (h : s.run enc next value = .ok wire) : P wire := by
  cases s with
  | done result => exact hs wire h
  | handOn other finish =>
    obtain ⟨w, hw, rfl⟩ := Traversal.map_eq_ok_iff.mp h
    exact hs.2 w (hnext other w hs.1 hw)
  | items values type finish =>
    obtain ⟨⟨ht, hv⟩, hfinish⟩ := hs
    obtain ⟨wires, hwires, hwire⟩ := Traversal.bind_eq_ok_iff.mp h
    obtain rfl := Except.ok.inj hwire
    refine hfinish wires (Traversal.forall_mem_of_mapM_eq_ok hwires fun v hmem w hw => ?_)
    exact henc v type w (hbelow v hmem) (hv v hmem) ht hw
  | slots first second firstType secondType finish =>
    obtain ⟨⟨ht1, ht2, hv1, hv2⟩, hfinish⟩ := hs
    obtain ⟨w1, hw1, h⟩ := Traversal.bind_eq_ok_iff.mp h
    obtain ⟨w2, hw2, h⟩ := Traversal.bind_eq_ok_iff.mp h
    obtain rfl := Except.ok.inj h
    exact hfinish w1 w2 (henc first firstType w1 hbelow.1 hv1 ht1 hw1)
      (henc second secondType w2 hbelow.2 hv2 ht2 hw2)
  | entries es keyType valueType finish =>
    obtain ⟨⟨htk, htv, hes⟩, hfinish⟩ := hs
    obtain ⟨wires, hwires, hwire⟩ := Traversal.bind_eq_ok_iff.mp h
    obtain rfl := Except.ok.inj hwire
    refine hfinish wires (Traversal.forall_mem_of_mapM_eq_ok hwires fun e hmem w hw => ?_)
    obtain ⟨hk, hv⟩ := Traversal.pair_eq_ok_iff.mp hw
    exact ⟨henc e.1 keyType w.1 (hbelow e hmem).1 (hes e hmem).1 htk hk,
      henc e.2 valueType w.2 (hbelow e hmem).2 (hes e hmem).2 htv hv⟩
  | fields fs finish =>
    obtain ⟨hfs, hfinish⟩ := hs
    obtain ⟨wires, hwires, hwire⟩ := Traversal.bind_eq_ok_iff.mp h
    obtain rfl := Except.ok.inj hwire
    refine hfinish wires (Traversal.forall_mem_of_mapM_eq_ok hwires ?_)
    rintro ⟨name, part, partType⟩ hmem w hw
    cases part with
    | error failure => cases hw
    | ok v =>
      obtain ⟨u, hu, hw⟩ := Traversal.bind_eq_ok_iff.mp hw
      obtain rfl := Except.ok.inj hw
      exact henc v partType u (hbelow _ hmem v rfl) ((hfs _ hmem).2 v rfl) (hfs _ hmem).1 hu

end Codec

namespace Json.Compositional

variable {P : Json → Prop}

theorem encodeHop (hP : Compositional P) {hops : Nat} {value : Value} (h : value.EveryDeclared P)
    {type : Json} (ht : P type) {wire : Json}
    (hw : Codec.encodeHop Codec.builtin hops value type = .ok wire) : P wire := by
  rw [Codec.encodeHop_eq] at hw
  refine (Codec.step_keeps hP h ht).run (Codec.step_below _ value type) ?_ ?_ hw
  -- Parts are smaller, and what is handed on has one hop less.
  · exact fun v t w hlt hv ht hw => encodeHop hP hv ht hw
  · intro t w ht hw
    cases hops with
    | zero => cases hw
    | succ hops => exact encodeHop hP h ht hw
termination_by (sizeOf value, hops)

/-- What a value is encoded to has the property if the types do that are declared and asked for. -/
theorem encode (hP : Compositional P) {value : Value} (h : value.EveryDeclared P) {type : Json}
    (ht : P type) {wire : Json} (hw : Codec.builtin.encode value type = .ok wire) : P wire :=
  hP.encodeHop h ht hw

end Json.Compositional

end Polyglot
