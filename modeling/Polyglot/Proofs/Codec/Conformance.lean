import Polyglot.Proofs.Codec.Found

/-!
# Wire values of a type

`Conforms` says what the wire values of a type are: the normal forms of the known types, chains of cells
that are all written with the type of the list, pairs and maps with the types of their slots, keys and
values, and for the type of all objects whatever conforms to the type that it is written with.

What an annotated value is encoded to for a type that is composed of the known ones conforms to this
type (`conforms_of_encode`).  So the types that are found in the parts of a list, a pair or a map, and
written on all of its cells and entries, are true of every part, at every level.
-/

namespace Polyglot

namespace Wire

/-! ### Composed types -/

/-- The known types that do not take arguments, that of references among them. -/
def leafIds : List String := TypeId.reference :: plainIds

/-- The types that are composed of the known ones by `listOf`, `pairOf` and `mapOf`. -/
inductive Composed : Json → Prop
  | bare {id : String} (h : id ∈ leafIds) : Composed (.str id)
  | reference {id : String} (h : id ∈ leafIds) : Composed (reference id)
  | listOf {element : Json} (h : Composed element) : Composed (listOf element)
  | pairOf {first second : Json} (h1 : Composed first) (h2 : Composed second) :
    Composed (pairOf first second)
  | mapOf {key value : Json} (hk : Composed key) (hv : Composed value) : Composed (mapOf key value)

theorem Composed.referenceForm {type : Json} (h : Composed type) :
    Composed (referenceForm type) := by
  cases h with
  | bare h => exact .reference h
  | reference h => exact .reference h
  | listOf h => exact listOf_eq _ ▸ .listOf h
  | pairOf h1 h2 => exact pairOf_eq _ _ ▸ .pairOf h1 h2
  | mapOf hk hv => exact mapOf_eq _ _ ▸ .mapOf hk hv

theorem Composed.legible {type : Json} (h : Composed type) : type.Legible := by
  have hP := Json.compositional_legible
  induction h with
  | bare _ => exact hP.str _
  | reference _ => exact hP.reference _
  | listOf _ ih => exact hP.listOf ih
  | pairOf _ _ ih1 ih2 => exact hP.pairOf ih1 ih2
  | mapOf _ _ ihk ihv => exact hP.mapOf ihk ihv

theorem composed_any : Composed (reference TypeId.any) := .reference (by decide)

/-- A composed type is that of a leaf, or a call with composed arguments in reference form. -/
theorem Composed.cases {type : Json} (h : Composed type) :
    (∃ id ∈ leafIds, idOfTag? type = some id) ∨
      (∃ element, Composed element ∧ Wire.referenceForm element = element ∧
        type = Wire.listOf element) ∨
      (∃ first second, (Composed first ∧ Wire.referenceForm first = first) ∧
        (Composed second ∧ Wire.referenceForm second = second) ∧ type = Wire.pairOf first second) ∨
      ∃ key value, (Composed key ∧ Wire.referenceForm key = key) ∧
        (Composed value ∧ Wire.referenceForm value = value) ∧ type = Wire.mapOf key value := by
  have hform := fun t => Codec.referenceForm_referenceForm t
  cases h with
  | bare h => exact .inl ⟨_, h, rfl⟩
  | reference h => exact .inl ⟨_, h, rfl⟩
  | @listOf element h =>
    refine .inr (.inl ⟨Wire.referenceForm element, h.referenceForm, hform _, ?_⟩)
    rw [listOf_eq, listOf_eq, hform]
  | @pairOf first second h1 h2 =>
    refine .inr (.inr (.inl ⟨Wire.referenceForm first, Wire.referenceForm second,
      ⟨h1.referenceForm, hform _⟩, ⟨h2.referenceForm, hform _⟩, ?_⟩))
    rw [pairOf_eq, pairOf_eq, hform, hform]
  | @mapOf key value hk hv =>
    refine .inr (.inr (.inr ⟨Wire.referenceForm key, Wire.referenceForm value,
      ⟨hk.referenceForm, hform _⟩, ⟨hv.referenceForm, hform _⟩, ?_⟩))
    rw [mapOf_eq, mapOf_eq, hform, hform]

end Wire

namespace Codec

/-- What a composed type is by the rule for it. -/
theorem composed_of_rule {type : Json} (h : Wire.Composed type) {id : String} {rule : EncodeRule}
    (hid : Wire.typeId type = .ok id) (hrule : builtin.encoders.find? id = some rule) :
    match rule with
      | .inferred => Wire.idOfTag? type = some TypeId.any
      | .text => Wire.idOfTag? type = some TypeId.string
      | .reference => Wire.idOfTag? type = some TypeId.reference
      | .oldList => Wire.idOfTag? type = some TypeId.oldList
      | .unit => Wire.idOfTag? type = some TypeId.unit
      | .sentinel target => Wire.idOfTag? type = some target ∧
        (target = TypeId.nothing ∨ target = TypeId.void)
      | .boolean => Wire.idOfTag? type = some TypeId.boolean
      | .codePoint => Wire.idOfTag? type = some TypeId.codePoint
      | .list => ∃ element, Wire.Composed element ∧ Wire.referenceForm element = element ∧
        type = Wire.listOf element
      | .pair => ∃ first second, (Wire.Composed first ∧ Wire.referenceForm first = first) ∧
        (Wire.Composed second ∧ Wire.referenceForm second = second) ∧ type = Wire.pairOf first second
      | .map => ∃ key value, (Wire.Composed key ∧ Wire.referenceForm key = key) ∧
        (Wire.Composed value ∧ Wire.referenceForm value = value) ∧ type = Wire.mapOf key value
      | .always _ | .refuse _ | .within _ => False := by
  have hruleId := id_of_rule hrule
  rcases h.cases with ⟨other, hleaf, hother⟩ | hlist | hpair | hmap
  · rw [Wire.typeId_of_idOfTag? hother] at hid
    obtain rfl := Except.ok.inj hid
    cases rule with
    | list | pair | map => exact absurd (hruleId ▸ hleaf) (by decide)
    | sentinel target => exact ⟨hruleId.1 ▸ hother, hruleId.2⟩
    | always | refuse | within => exact hruleId
    | _ => exact hruleId ▸ hother
  · have htype : Wire.typeId type = .ok TypeId.list := by
      obtain ⟨_, -, -, rfl⟩ := hlist
      exact Wire.typeId_listOf _
    obtain rfl := Except.ok.inj (htype.symm.trans hid)
    obtain rfl : EncodeRule.list = rule := Option.some.inj hrule
    exact hlist
  · have htype : Wire.typeId type = .ok TypeId.pair := by
      obtain ⟨_, _, -, -, rfl⟩ := hpair
      exact Wire.typeId_pairOf ..
    obtain rfl := Except.ok.inj (htype.symm.trans hid)
    obtain rfl : EncodeRule.pair = rule := Option.some.inj hrule
    exact hpair
  · have htype : Wire.typeId type = .ok TypeId.map := by
      obtain ⟨_, _, -, -, rfl⟩ := hmap
      exact Wire.typeId_mapOf ..
    obtain rfl := Except.ok.inj (htype.symm.trans hid)
    obtain rfl : EncodeRule.map = rule := Option.some.inj hrule
    exact hmap

/-- There is a rule for each composed type. -/
theorem hasEncoder_of_composed {type : Json} (h : Wire.Composed type) {id : String}
    (hid : Wire.typeId type = .ok id) : builtin.hasEncoder id = true := by
  rcases h.cases with ⟨other, hleaf, hother⟩ | ⟨_, -, -, rfl⟩ | ⟨_, _, -, -, rfl⟩ | ⟨_, _, -, -, rfl⟩
  · rw [Wire.typeId_of_idOfTag? hother] at hid
    obtain rfl := Except.ok.inj hid
    have hall : ∀ id ∈ Wire.leafIds, builtin.hasEncoder id = true := by decide +kernel
    exact hall _ hleaf
  · obtain rfl := Except.ok.inj ((Wire.typeId_listOf _).symm.trans hid)
    rfl
  · obtain rfl := Except.ok.inj ((Wire.typeId_pairOf ..).symm.trans hid)
    rfl
  · obtain rfl := Except.ok.inj ((Wire.typeId_mapOf ..).symm.trans hid)
    rfl

/-- Among the composed types just those of pairs name slot types. -/
theorem slotTypes?_of_composed {type : Json} (h : Wire.Composed type) :
    slotTypes? type = none ∨ ∃ first second, Wire.Composed first ∧ Wire.Composed second ∧
      type = Wire.pairOf first second ∧ slotTypes? type = some (first, second) := by
  rcases h with _ | _ | @⟨element, -⟩ | ⟨h1, h2⟩ | @⟨key, value, -, -⟩
  · refine .inl ?_
    simp only [slotTypes?, argumentOf?_str]
  · refine .inl ?_
    simp only [slotTypes?, argumentOf?_reference]
  · refine .inl ?_
    have hargument : Wire.argumentOf? (Wire.listOf element) "Z882K1" = none := by
      rw [Wire.listOf_eq, Wire.argumentOf?_call]
      rfl
    simp only [slotTypes?, hargument]
  · refine .inr ⟨_, _, h1.referenceForm, h2.referenceForm, ?_, slotTypes?_pairOf ..⟩
    simp only [Wire.pairOf_eq, referenceForm_referenceForm]
  · refine .inl ?_
    have hargument : Wire.argumentOf? (Wire.mapOf key value) "Z882K1" = none := by
      rw [Wire.mapOf_eq, Wire.argumentOf?_call]
      rfl
    simp only [slotTypes?, hargument]

/-! ### Conforming wire values -/

/-- Whether a wire value is one of a type. -/
inductive Conforms : (wire type : Json) → Prop
  | text (s : String) {type : Json} (htype : Wire.idOfTag? type = some TypeId.string) :
    Conforms (.obj [("Z1K1", .str "Z6"), ("Z6K1", .str s)]) type
  | reference (id : String) {type : Json} (htype : Wire.idOfTag? type = some TypeId.reference) :
    Conforms (.obj [("Z1K1", .str "Z9"), ("Z9K1", .str id)]) type
  | unit {type : Json} (htype : Wire.idOfTag? type = some TypeId.unit) :
    Conforms (.obj [("Z1K1", Wire.reference "Z21")]) type
  | nothing {type : Json} (htype : Wire.idOfTag? type = some TypeId.nothing) :
    Conforms (Wire.reference "Z23") type
  | void {type : Json} (htype : Wire.idOfTag? type = some TypeId.void) :
    Conforms (Wire.reference "Z24") type
  | boolean {id : String} (hid : id ∈ ["Z41", "Z42"]) {type : Json}
    (htype : Wire.idOfTag? type = some TypeId.boolean) :
    Conforms (.obj [("Z1K1", Wire.reference "Z40"), ("Z40K1", Wire.reference id)]) type
  | codePoint {s : String} (hs : s.toList.length = 1) {type : Json}
    (htype : Wire.idOfTag? type = some TypeId.codePoint) :
    Conforms (.obj [("Z1K1", Wire.reference "Z86"), ("Z86K1", Wire.text s)]) type
  | oldEnd {type : Json} (htype : Wire.idOfTag? type = some TypeId.oldList) :
    Conforms (.obj [("Z1K1", Wire.reference "Z10")]) type
  | oldCell {head tail type : Json} (htype : Wire.idOfTag? type = some TypeId.oldList)
    (hhead : Conforms head (Wire.reference TypeId.any)) (htail : Conforms tail type) :
    Conforms (.obj [("Z10K1", head), ("Z10K2", tail), ("Z1K1", Wire.reference "Z10")]) type
  | listEnd (element : Json) :
    Conforms (.obj [("Z1K1", Wire.listOf element)]) (Wire.listOf element)
  | listCell {head tail element : Json} (hhead : Conforms head element)
    (htail : Conforms tail (Wire.listOf element)) :
    Conforms (.obj [("K1", head), ("K2", tail), ("Z1K1", Wire.listOf element)])
      (Wire.listOf element)
  | pair {w1 w2 first second : Json} (h1 : Conforms w1 first) (h2 : Conforms w2 second) :
    Conforms (.obj [("K1", w1), ("K2", w2), ("Z1K1", Wire.pairOf first second)])
      (Wire.pairOf first second)
  | map {entries key value : Json}
    (h : Conforms entries (Wire.listOf (Wire.pairOf key value))) :
    Conforms (.obj [("K1", entries), ("Z1K1", Wire.mapOf key value)]) (Wire.mapOf key value)
  | any {wire tag type : Json} (htype : Wire.idOfTag? type = some TypeId.any)
    (htag : wire.field? "Z1K1" = some tag) (h : Conforms wire tag) : Conforms wire type
  | record {fields : Json.Fields Json} {id : String} (hid : builtin.hasEncoder id = false)
    (htag : fields.find? "Z1K1" = some (Wire.reference id))
    (h : ∀ f ∈ fields, f.1 ≠ "Z1K1" → Conforms f.2 (Wire.reference TypeId.any)) :
    Conforms (.obj fields) (Wire.reference id)

theorem idOfTag?_referenceForm {type : Json} {id : String} (h : Wire.idOfTag? type = some id) :
    Wire.idOfTag? (Wire.referenceForm type) = some id := by
  cases type with
  | str s => exact h
  | _ => exact h

theorem idOfTag?_listOf (element : Json) : Wire.idOfTag? (Wire.listOf element) = none := by
  rw [Wire.listOf_eq]
  rfl

theorem idOfTag?_pairOf (first second : Json) :
    Wire.idOfTag? (Wire.pairOf first second) = none := by
  rw [Wire.pairOf_eq]
  rfl

theorem idOfTag?_mapOf (key value : Json) : Wire.idOfTag? (Wire.mapOf key value) = none := by
  rw [Wire.mapOf_eq]
  rfl

/-- What conforms to a bare type conforms to the reference to it. -/
theorem Conforms.referenceForm {wire type : Json} (h : Conforms wire type) :
    Conforms wire (Wire.referenceForm type) := by
  induction h with
  | text s htype => exact .text s (idOfTag?_referenceForm htype)
  | reference id htype => exact .reference id (idOfTag?_referenceForm htype)
  | unit htype => exact .unit (idOfTag?_referenceForm htype)
  | nothing htype => exact .nothing (idOfTag?_referenceForm htype)
  | void htype => exact .void (idOfTag?_referenceForm htype)
  | boolean hid htype => exact .boolean hid (idOfTag?_referenceForm htype)
  | codePoint hs htype => exact .codePoint hs (idOfTag?_referenceForm htype)
  | oldEnd htype => exact .oldEnd (idOfTag?_referenceForm htype)
  | oldCell htype hhead _ _ ih => exact .oldCell (idOfTag?_referenceForm htype) hhead ih
  | listEnd element => exact .listEnd element
  | listCell hhead htail => exact .listCell hhead htail
  | pair h1 h2 => exact .pair h1 h2
  | map h => exact .map h
  | any htype htag h => exact .any (idOfTag?_referenceForm htype) htag h
  | record hid htag h => exact .record hid htag h

/-- Among all objects a wire value conforms to the type that it is written with. -/
theorem Conforms.tagOf {wire type : Json} (h : Conforms wire type)
    (htype : Wire.idOfTag? type = some TypeId.any) : Conforms wire (tagOf wire) := by
  have hne : ∀ {id : String}, Wire.idOfTag? type = some id → id ≠ TypeId.any → False :=
    fun hid hne => hne (Option.some.inj (hid.symm.trans htype))
  cases h with
  | any _ htag h => rwa [Codec.tagOf, htag, Option.getD_some]
  | listEnd element | listCell =>
    rw [idOfTag?_listOf] at htype
    cases htype
  | pair =>
    rw [idOfTag?_pairOf] at htype
    cases htype
  | map =>
    rw [idOfTag?_mapOf] at htype
    cases htype
  | record hid =>
    obtain rfl := Option.some.inj htype
    cases hid
  | oldCell h => exact (hne h (by decide)).elim
  | text | reference | unit | nothing | void | boolean | codePoint | oldEnd =>
    rename_i h
    exact (hne h (by decide)).elim

/-- Wire values of all objects conform to the type that they share. -/
theorem conforms_sharedType {wires : List Json} (hl : ∀ w ∈ wires, w.Legible)
    (h : ∀ w ∈ wires, Conforms w (Wire.reference TypeId.any)) :
    ∀ w ∈ wires, Conforms w (sharedType (wires.map tagOf)) := by
  have hlegible : ∀ tag ∈ wires.map Codec.tagOf, tag.Legible :=
    List.forall_mem_map.mpr fun w hw => Json.compositional_legible.tagOf (hl w hw)
  intro w hw
  rcases sharedType_cases hlegible with hany | ⟨-, hall⟩
  · rw [hany]
    exact h w hw
  · rw [← hall (Codec.tagOf w) (List.mem_map_of_mem hw)]
    exact ((h w hw).tagOf rfl).referenceForm

/-! ### Lists and maps -/

theorem conforms_listWith {element : Json} {wires : List Json}
    (h : ∀ w ∈ wires, Conforms w element) :
    Conforms (Wire.listWith (Wire.listOf element) wires) (Wire.listOf element) := by
  induction wires with
  | nil => exact .listEnd element
  | cons w wires ih =>
    obtain ⟨hw, hrest⟩ := List.forall_mem_cons.mp h
    exact .listCell hw (ih hrest)

theorem conforms_oldListWire {type : Json} (htype : Wire.idOfTag? type = some TypeId.oldList)
    {wires : List Json} (h : ∀ w ∈ wires, Conforms w (Wire.reference TypeId.any)) :
    Conforms (oldListWire wires) type := by
  induction wires with
  | nil => exact .oldEnd htype
  | cons w wires ih =>
    obtain ⟨hw, hrest⟩ := List.forall_mem_cons.mp h
    exact .oldCell htype hw (ih hrest)

theorem conforms_mapWire {key value : Json} {wires : List (Json × Json)}
    (hk : ∀ w ∈ wires, Conforms w.1 key) (hv : ∀ w ∈ wires, Conforms w.2 value) :
    Conforms (mapWire (Wire.mapOf key value) (Wire.pairOf key value) wires)
      (Wire.mapOf key value) := by
  refine .map (conforms_listWith (List.forall_mem_map.mpr fun w hw => ?_))
  exact .pair (hk w hw) (hv w hw)

theorem field?_listWith (type : Json) (wires : List Json) :
    (Wire.listWith type wires).field? "Z1K1" = some type := by
  cases wires <;> rfl

/-! ### What is encoded -/

/-- Whether what a value is encoded to for a composed type conforms to the type. -/
def EncodesTruly (value : Value) : Prop :=
  ∀ type wire, Wire.Composed type → builtin.encode value type = .ok wire → Conforms wire type

theorem encodesTruly_text (s : String) : EncodesTruly (.text s) := by
  intro type wire ht h
  obtain ⟨id, rule, hid, hrule, hstep⟩ := exists_rule (by rintro _ _ ⟨⟩) h
  have htype := composed_of_rule ht hid hrule
  cases rule with
  | inferred =>
    obtain rfl := Except.ok.inj hstep
    exact .any htype rfl (.text s rfl)
  | text =>
    obtain rfl := Except.ok.inj hstep
    exact .text s htype
  | reference =>
    rw [ruleStep] at hstep
    split_ifs at hstep
    · obtain rfl := Except.ok.inj hstep
      exact .reference s htype
    · cases hstep
  | codePoint =>
    rw [ruleStep] at hstep
    split_ifs at hstep with hone
    · obtain rfl := Except.ok.inj hstep
      exact .codePoint hone htype
    · cases hstep
  | always | refuse | within => exact htype.elim
  | _ => cases hstep

theorem encodesTruly_reference (id : String) : EncodesTruly (.reference id) := by
  intro type wire ht h
  obtain ⟨denoted, rule, hid, hrule, hstep⟩ := exists_rule (by rintro _ _ ⟨⟩) h
  have htype := composed_of_rule ht hid hrule
  cases rule with
  | inferred =>
    obtain rfl := Except.ok.inj hstep
    exact .any htype rfl (.reference id rfl)
  | reference =>
    obtain rfl := Except.ok.inj hstep
    exact .reference id htype
  | always | refuse | within => exact htype.elim
  | _ => cases hstep

theorem conforms_booleanWire (b : Bool) {type : Json}
    (htype : Wire.idOfTag? type = some TypeId.boolean) : Conforms (booleanWire b) type :=
  .boolean (by cases b <;> decide) htype

theorem encodesTruly_flag (b : Bool) : EncodesTruly (.flag b) := by
  intro type wire ht h
  obtain ⟨id, rule, hid, hrule, hstep⟩ := exists_rule (by rintro _ _ ⟨⟩) h
  have htype := composed_of_rule ht hid hrule
  cases rule with
  | inferred =>
    obtain rfl := Except.ok.inj hstep
    exact .any htype rfl (conforms_booleanWire b rfl)
  | boolean =>
    obtain rfl := Except.ok.inj hstep
    exact conforms_booleanWire b htype
  | always | refuse | within => exact htype.elim
  | _ => cases hstep

theorem encodesTruly_unit : EncodesTruly .unit := by
  intro type wire ht h
  obtain ⟨id, rule, hid, hrule, hstep⟩ := exists_rule (by rintro _ _ ⟨⟩) h
  have htype := composed_of_rule ht hid hrule
  cases rule with
  | inferred =>
    obtain rfl := Except.ok.inj hstep
    exact .any htype rfl (.unit rfl)
  | unit =>
    obtain rfl := Except.ok.inj hstep
    exact .unit htype
  | sentinel target =>
    obtain rfl := Except.ok.inj hstep
    obtain ⟨htype, rfl | rfl⟩ := htype
    · exact .nothing htype
    · exact .void htype
  | always | refuse | within => exact htype.elim
  | _ => cases hstep

/-- What parts are encoded to for one type conforms to it and is told by its text. -/
theorem conforms_of_forall₂ {α β : Type} (part : α → Value) (wirePart : β → Json) {parts : List α}
    {wires : List β} {type : Json} (ht : Wire.Composed type)
    (hwires : List.Forall₂ (fun v w => builtin.encode (part v) type = .ok (wirePart w)) parts wires)
    (hl : ∀ v ∈ parts, (part v).EveryDeclared Json.Legible) (h : ∀ v ∈ parts, EncodesTruly (part v)) :
    (∀ w ∈ wires, Conforms (wirePart w) type) ∧ ∀ w ∈ wires, (wirePart w).Legible := by
  refine forall₂_and.mp fun w hw => ?_
  obtain ⟨v, hzip⟩ := Traversal.exists_mem_zip_of_mem_right hwires hw
  have hv := (List.of_mem_zip hzip).1
  have hencode := List.forall₂_zip hwires hzip
  exact ⟨h v hv type _ ht hencode, Json.compositional_legible.encode (hl v hv) ht.legible hencode⟩

theorem encodesTruly_list {items : List Value} (hl : ∀ v ∈ items, v.EveryDeclared Json.Legible)
    (h : ∀ v ∈ items, EncodesTruly v) : EncodesTruly (.list items) := by
  intro type wire ht hwire
  obtain ⟨denoted, rule, hid, hrule, hrun⟩ := exists_rule (by rintro _ _ ⟨⟩) hwire
  have hstep := step_of_rule rule hid hrule (.list items)
  have htype := composed_of_rule ht hid hrule
  cases rule with
  | inferred =>
    obtain ⟨wires, hwires, rfl⟩ := exists_of_items hstep hwire
    obtain ⟨hconforms, hlegible⟩ := conforms_of_forall₂ id id Wire.composed_any hwires hl h
    exact .any htype (field?_listWith ..)
      (conforms_listWith (conforms_sharedType hlegible hconforms))
  | oldList =>
    obtain ⟨wires, hwires, rfl⟩ := exists_of_items hstep hwire
    exact conforms_oldListWire htype (conforms_of_forall₂ id id Wire.composed_any hwires hl h).1
  | list =>
    obtain ⟨element, helement, hform, rfl⟩ := htype
    simp only [ruleStep, Wire.argumentOf?_listOf, hform] at hstep
    obtain ⟨wires, hwires, rfl⟩ := exists_of_items hstep hwire
    exact conforms_listWith (conforms_of_forall₂ id id helement hwires hl h).1
  | always | refuse | within => exact htype.elim
  | _ => cases hrun

/-- A pair that is encoded by its shape conforms to the type that it is written with. -/
theorem conforms_inferredPair {first second : Value} (h1 : EncodesTruly first)
    (h2 : EncodesTruly second) {w1 w2 : Json} (hw1 : builtin.encodeAny first = .ok w1)
    (hw2 : builtin.encodeAny second = .ok w2) :
    Conforms (inferredPair w1 w2) (Wire.pairOf (tagOf w1) (tagOf w2)) :=
  .pair ((h1 _ w1 Wire.composed_any hw1).tagOf rfl) ((h2 _ w2 Wire.composed_any hw2).tagOf rfl)

theorem encodesTruly_pair {first second : Value} {declared : Option Json}
    (hdeclared : ∀ type, declared = some type → Wire.Composed type) (h1 : EncodesTruly first)
    (h2 : EncodesTruly second) : EncodesTruly (.pair first second declared) := by
  intro type wire ht hwire
  obtain ⟨id, rule, hid, hrule, hrun⟩ := exists_rule (by rintro _ _ ⟨⟩) hwire
  have hstep := step_of_rule rule hid hrule (.pair first second declared)
  have htype := composed_of_rule ht hid hrule
  cases rule with
  | inferred =>
    have hslots : slotTypes? (declared.getD .null) = none ∨ ∃ a b, Wire.Composed a ∧
        Wire.Composed b ∧ declared.getD .null = Wire.pairOf a b ∧
        slotTypes? (declared.getD .null) = some (a, b) := by
      cases declared with
      | none => exact .inl (by decide +kernel)
      | some other => exact slotTypes?_of_composed (hdeclared other rfl)
    rcases hslots with hnone | ⟨a, b, ha, hb, hpair, hsome⟩
    · obtain ⟨w1, w2, hw1, hw2, rfl⟩ :=
        exists_of_slots (hstep.trans (slotStep_of_none hnone first second)) hwire
      exact .any htype rfl (conforms_inferredPair h1 h2 hw1 hw2)
    · obtain ⟨w1, w2, hw1, hw2, rfl⟩ :=
        exists_of_slots (hstep.trans (slotStep_of_some hsome first second)) hwire
      rw [hpair]
      exact .any htype rfl (.pair (h1 _ w1 ha hw1) (h2 _ w2 hb hw2))
  | pair =>
    obtain ⟨a, b, ⟨ha, haform⟩, ⟨hb, hbform⟩, rfl⟩ := htype
    have hslots := slotTypes?_pairOf a b
    rw [haform, hbform] at hslots
    obtain ⟨w1, w2, hw1, hw2, rfl⟩ :=
      exists_of_slots (hstep.trans (slotStep_of_some hslots first second)) hwire
    exact .pair (h1 _ w1 ha hw1) (h2 _ w2 hb hw2)
  | always | refuse | within => exact htype.elim
  | _ => cases hrun

theorem conforms_of_entries {entries : Value.Entries} {wires : List (Json × Json)}
    {keyType valueType : Json} (hk : Wire.Composed keyType) (hv : Wire.Composed valueType)
    (hwires : List.Forall₂ (fun e w => builtin.encode e.1 keyType = .ok w.1 ∧
      builtin.encode e.2 valueType = .ok w.2) entries wires)
    (hl : ∀ e ∈ entries, e.1.EveryDeclared Json.Legible ∧ e.2.EveryDeclared Json.Legible)
    (h : ∀ e ∈ entries, EncodesTruly e.1 ∧ EncodesTruly e.2) :
    ((∀ w ∈ wires, Conforms w.1 keyType) ∧ ∀ w ∈ wires, w.1.Legible) ∧
      (∀ w ∈ wires, Conforms w.2 valueType) ∧ ∀ w ∈ wires, w.2.Legible := by
  constructor
  · exact conforms_of_forall₂ Prod.fst Prod.fst hk (hwires.imp fun _ _ hw => hw.1)
      (fun e he => (hl e he).1) fun e he => (h e he).1
  · exact conforms_of_forall₂ Prod.snd Prod.snd hv (hwires.imp fun _ _ hw => hw.2)
      (fun e he => (hl e he).2) fun e he => (h e he).2

theorem encodesTruly_map {entries : Value.Entries}
    (hl : ∀ e ∈ entries, e.1.EveryDeclared Json.Legible ∧ e.2.EveryDeclared Json.Legible)
    (h : ∀ e ∈ entries, EncodesTruly e.1 ∧ EncodesTruly e.2) : EncodesTruly (.map entries) := by
  intro type wire ht hwire
  obtain ⟨id, rule, hid, hrule, hrun⟩ := exists_rule (by rintro _ _ ⟨⟩) hwire
  have hstep := step_of_rule rule hid hrule (.map entries)
  have htype := composed_of_rule ht hid hrule
  cases rule with
  | inferred =>
    obtain ⟨wires, hwires, rfl⟩ := exists_of_entries hstep hwire
    obtain ⟨⟨hk, hlk⟩, hv, hlv⟩ :=
      conforms_of_entries Wire.composed_any Wire.composed_any hwires hl h
    have hkeys := conforms_sharedType (List.forall_mem_map.mpr hlk) (List.forall_mem_map.mpr hk)
    have hvalues := conforms_sharedType (List.forall_mem_map.mpr hlv) (List.forall_mem_map.mpr hv)
    rw [List.map_map, List.forall_mem_map] at hkeys hvalues
    exact .any htype rfl (conforms_mapWire hkeys hvalues)
  | map =>
    obtain ⟨key, value, ⟨hkey, hkform⟩, ⟨hvalue, hvform⟩, rfl⟩ := htype
    simp only [ruleStep, Wire.argumentOf?_mapOf_key, Wire.argumentOf?_mapOf_value, hkform, hvform]
      at hstep
    obtain ⟨wires, hwires, rfl⟩ := exists_of_entries hstep hwire
    obtain ⟨⟨hk, -⟩, hv, -⟩ := conforms_of_entries hkey hvalue hwires hl h
    exact conforms_mapWire hk hv
  | always | refuse | within => exact htype.elim
  | _ => cases hrun

/-- A record that declares a reference is written with all of its fields by their shapes. -/
theorem encodesTruly_record {id : String} {fields : Json.Fields Value}
    (hid : builtin.hasEncoder id = false) (hk : fields.Ascending) (hno : ∀ f ∈ fields, f.1 ≠ "Z1K1")
    (h : ∀ f ∈ fields, EncodesTruly f.2) :
    EncodesTruly (.record (some (Wire.reference id)) fields) := by
  intro type wire ht hwire
  rcases encode_record_cases hwire with ⟨denoted, htype, hnone⟩ |
    ⟨htype, other, denoted, hother, -, hdenoted, hnone, hrecord⟩
  · -- There is a rule for every composed type.
    have hencoder := hasEncoder_of_composed ht htype
    rw [hasEncoder, hnone] at hencoder
    cases hencoder
  · obtain rfl := Option.some.inj hother
    obtain ⟨keys, wires, hkeys, hwires, hnoZ1K1, rfl⟩ :=
      exists_written_fields hdenoted hnone hk hno hrecord
    have hkeys : keys = fields.map fun f => (f.1, Wire.reference TypeId.any) := by
      rcases hkeys with hkeys | ⟨-, hkeys⟩
      · have hnone : keysOfType? (Wire.reference id) = .ok none := keysOfType?_of_idOfTag? rfl
        rw [hnone] at hkeys
        cases hkeys
      · exact hkeys
    have htag := Json.Fields.find?_ofList_cons (Wire.reference id) hnoZ1K1
    have hrule : builtin.encoders.find? TypeId.any = some .inferred := rfl
    refine .any (composed_of_rule ht htype hrule) htag (.record hid htag ?_)
    intro f hf hname
    rcases List.mem_cons.mp (Json.Fields.mem_ofList hf) with rfl | hf
    · exact absurd rfl hname
    · obtain ⟨key, hzip⟩ := Traversal.exists_mem_zip_of_mem_right hwires hf
      obtain ⟨-, v, hv, hencode⟩ := List.forall₂_zip hwires hzip
      obtain ⟨g, -, rfl⟩ := List.mem_map.mp (hkeys ▸ (List.of_mem_zip hzip).1)
      exact h _ (Json.Fields.mem_of_find? hv) _ _ Wire.composed_any hencode

/-! ### Soundness -/

/-- What an annotated value is encoded to for a composed type conforms to this type. -/
theorem conforms_of_encode {value : Value} (h : Annotated Wire.Composed value) {type wire : Json}
    (ht : Wire.Composed type) (hwire : builtin.encode value type = .ok wire) :
    Conforms wire type := by
  suffices htruly : EncodesTruly value from htruly type wire ht hwire
  have hl : ∀ {v : Value}, Annotated Wire.Composed v → v.EveryDeclared Json.Legible := fun hv =>
    hv.everyDeclared (fun _ ht => ht.legible) Json.compositional_legible.reference
  clear ht hwire
  induction h with
  | text s => exact encodesTruly_text s
  | reference id => exact encodesTruly_reference id
  | flag b => exact encodesTruly_flag b
  | unit => exact encodesTruly_unit
  | list h ih => exact encodesTruly_list (fun v hv => hl (h v hv)) ih
  | pair h _ _ ih1 ih2 => exact encodesTruly_pair h ih1 ih2
  | map hk hv ihk ihv =>
    exact encodesTruly_map (fun e he => ⟨hl (hk e he), hl (hv e he)⟩)
      fun e he => ⟨ihk e he, ihv e he⟩
  | record hid hk hno _ ih => exact encodesTruly_record hid hk hno ih

/-- A list of texts and a record next to a map to a pair that declares its type. -/
def textsAndMap : Value :=
  .pair
    (.list [.list [.text "a", .text "b"],
      .record (some (Wire.reference "Z2000")) [("Z2000K1", .list [.flag true])]])
    (.map [(.text "k", .pair .unit (.list []) (some (Wire.pairOf (.str "Z24") (.str "Z10"))))])
    none

/-- It conforms to a pair of lists of all objects and maps from texts to all objects. -/
theorem conforms_of_encode_textsAndMap : ∃ wire,
    builtin.encode textsAndMap (Wire.pairOf (Wire.listOf (.str "Z1"))
        (Wire.mapOf (.str "Z6") (Wire.reference "Z1"))) = .ok wire ∧
      Conforms wire (Wire.pairOf (Wire.listOf (.str "Z1"))
        (Wire.mapOf (.str "Z6") (Wire.reference "Z1"))) := by
  have hannotated : Annotated Wire.Composed textsAndMap := by
    refine .pair (by rintro _ ⟨⟩) (.list ?_) (.map ?_ ?_)
    · simp only [List.forall_mem_cons, List.not_mem_nil, false_implies, implies_true, and_true]
      refine ⟨.list ?_, .record rfl (List.pairwise_singleton ..) (by decide) ?_⟩
      · simpa using ⟨.text "a", .text "b"⟩
      · simpa using .list (by simpa using .flag true)
    · simpa using .text "k"
    · simp only [List.forall_mem_singleton]
      refine .pair ?_ .unit (.list (by simp))
      rintro _ ⟨⟩
      exact .pairOf (.bare (by decide)) (.bare (by decide))
  have hcomposed : Wire.Composed (Wire.pairOf (Wire.listOf (.str "Z1"))
      (Wire.mapOf (.str "Z6") (Wire.reference "Z1"))) :=
    .pairOf (.listOf (.bare (by decide))) (.mapOf (.bare (by decide)) (.reference (by decide)))
  have hwithin : ∃ wire, encodeWithin builtin 8 textsAndMap (Wire.pairOf (Wire.listOf (.str "Z1"))
      (Wire.mapOf (.str "Z6") (Wire.reference "Z1"))) = .ok wire := ⟨_, by cbv⟩
  obtain ⟨wire, hwire⟩ := hwithin
  have hencode := encode_of_encodeWithin hwire (by rintro ⟨⟩)
  exact ⟨wire, hencode, conforms_of_encode hannotated hcomposed hencode⟩

end Codec

end Polyglot
