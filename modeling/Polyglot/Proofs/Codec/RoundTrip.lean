import Polyglot.Proofs.Codec.Termination
import Polyglot.Proofs.Codec.WireForms

/-!
# From native values to the wire and back

A value that is encoded for a type built from the known types is decoded to an equal value
(`Portable.decodesTo`), and encoding by shape succeeds for values without records and without declared
types (`Untyped.exists_encodeAny`).  `decode_encode_same` states both.

Both are by induction on the size of the value.  What carries the first is `Step.Faithful`: whatever
wire values of its parts are decoded to equals of the parts, a step builds a wire value from them that
is decoded to an equal of the value.
-/

namespace Polyglot

namespace Wire

/-- The known types that do not take arguments. -/
def plainIds : List String :=
  [TypeId.any, TypeId.string, TypeId.oldList, TypeId.unit, TypeId.nothing, TypeId.void,
    TypeId.boolean, TypeId.codePoint]

/-- The types that are built from known ones. -/
inductive Built : Json → Prop
  | bare {id : String} (h : id ∈ plainIds) : Built (.str id)
  | reference {id : String} (h : id ∈ plainIds) : Built (Wire.reference id)
  | listOf {element : Json} (h : Built element) : Built (listOf element)
  | pairOf {first second : Json} (h1 : Built first) (h2 : Built second) : Built (pairOf first second)
  | mapOf {key value : Json} (hk : Built key) (hv : Built value) : Built (mapOf key value)
  | listDescriptor {element : Json} (h : Built element) : Built (listDescriptor element)
  | pairDescriptor {first second : Json} (h1 : Built first) (h2 : Built second) :
    Built (pairDescriptor first second)
  | mapDescriptor {key value : Json} (hk : Built key) (hv : Built value) :
    Built (mapDescriptor key value)

/-- Whether a type is one of pairs of types that are built. -/
def IsBuiltPair (type : Json) : Prop :=
  ∃ first second, Built first ∧ Built second ∧
    (type = pairOf first second ∨ type = pairDescriptor first second)

theorem Built.referenceForm {type : Json} (h : Built type) : Built (referenceForm type) := by
  cases h with
  | bare h => exact .reference h
  | reference h => exact .reference h
  | listOf h => exact listOf_eq _ ▸ .listOf h
  | pairOf h1 h2 => exact pairOf_eq _ _ ▸ .pairOf h1 h2
  | mapOf hk hv => exact mapOf_eq _ _ ▸ .mapOf hk hv
  | listDescriptor h => exact .listDescriptor h
  | pairDescriptor h1 h2 => exact .pairDescriptor h1 h2
  | mapDescriptor hk hv => exact .mapDescriptor hk hv

theorem built_any : Built (reference TypeId.any) := .reference (by simp [plainIds])

/-- What a type of pairs denotes, and the types of the slots that it names. -/
theorem IsBuiltPair.spec {type : Json} (h : IsBuiltPair type) :
    typeId type = .ok TypeId.pair ∧ ∃ first second, Built first ∧ Built second ∧
      argumentOf? type "Z882K1" = some first ∧ argumentOf? type "Z882K2" = some second := by
  obtain ⟨first, second, h1, h2, rfl | rfl⟩ := h
  · exact ⟨typeId_pairOf .., _, _, h1.referenceForm, h2.referenceForm, argumentOf?_pairOf_first ..,
      argumentOf?_pairOf_second ..⟩
  · refine ⟨?_, _, _, h1.referenceForm, h2.referenceForm, ?_, ?_⟩
    · rw [pairDescriptor, typeId_descriptor, typeId_pairOf]
    · rw [pairDescriptor, argumentOf?_descriptor, argumentOf?_pairOf_first]
    · rw [pairDescriptor, argumentOf?_descriptor, argumentOf?_pairOf_second]

/-- What a built type denotes: a known type without arguments, or one of lists, pairs or maps of
built types. -/
theorem Built.spec {type : Json} (h : Built type) :
    (∃ id ∈ plainIds, typeId type = .ok id) ∨
      (typeId type = .ok TypeId.list ∧
        ∃ element, Built element ∧ argumentOf? type "Z881K1" = some element) ∨
      IsBuiltPair type ∨
      (typeId type = .ok TypeId.map ∧ ∃ key value, Built key ∧ Built value ∧
        argumentOf? type "Z883K1" = some key ∧ argumentOf? type "Z883K2" = some value) := by
  cases h with
  | bare h => exact .inl ⟨_, h, typeId_str _⟩
  | reference h => exact .inl ⟨_, h, typeId_reference _⟩
  | listOf h =>
    exact .inr (.inl ⟨typeId_listOf _, _, h.referenceForm, argumentOf?_listOf _⟩)
  | listDescriptor h =>
    refine .inr (.inl ⟨?_, _, h.referenceForm, ?_⟩)
    · rw [Wire.listDescriptor, typeId_descriptor, typeId_listOf]
    · rw [Wire.listDescriptor, argumentOf?_descriptor, argumentOf?_listOf]
  | pairOf h1 h2 => exact .inr (.inr (.inl ⟨_, _, h1, h2, .inl rfl⟩))
  | pairDescriptor h1 h2 => exact .inr (.inr (.inl ⟨_, _, h1, h2, .inr rfl⟩))
  | mapOf hk hv =>
    exact .inr (.inr (.inr ⟨typeId_mapOf .., _, _, hk.referenceForm, hv.referenceForm,
      argumentOf?_mapOf_key .., argumentOf?_mapOf_value ..⟩))
  | mapDescriptor hk hv =>
    refine .inr (.inr (.inr ⟨?_, _, _, hk.referenceForm, hv.referenceForm, ?_, ?_⟩))
    · rw [Wire.mapDescriptor, typeId_descriptor, typeId_mapOf]
    · rw [Wire.mapDescriptor, argumentOf?_descriptor, argumentOf?_mapOf_key]
    · rw [Wire.mapDescriptor, argumentOf?_descriptor, argumentOf?_mapOf_value]

end Wire

namespace Codec

/-! ### Values that come back -/

/-- The values that come back from the wire: no reference is to one of the values known by name, the
types declared for pairs are built, those declared for records are bare or references and have no
rule, and the keys of maps differ. -/
inductive Portable : Value → Prop
  | text (s : String) : Portable (.text s)
  | reference {id : String}
    (h : id ∉ [TypeId.nothing, TypeId.void, TypeId.true, TypeId.false]) : Portable (.reference id)
  | flag (b : Bool) : Portable (.flag b)
  | unit : Portable .unit
  | list {items : List Value} (h : ∀ v ∈ items, Portable v) : Portable (.list items)
  | pair {first second : Value} {declared : Option Json} (h1 : Portable first) (h2 : Portable second)
    (h : ∀ type, declared = some type → Wire.IsBuiltPair type) :
    Portable (.pair first second declared)
  | map {entries : Value.Entries} (hk : ∀ e ∈ entries, Portable e.1) (hv : ∀ e ∈ entries, Portable e.2)
    (h : entries.KeysDiffer) : Portable (.map entries)
  | record {declared : Json} {id : String} {fields : Json.Fields Value}
    (hid : Wire.idOfTag? declared = some id) (henc : builtin.hasEncoder id = false)
    (hdec : builtin.hasDecoder id = false) (hk : fields.Ascending) (hno : ∀ f ∈ fields, f.1 ≠ "Z1K1")
    (h : ∀ f ∈ fields, Portable f.2) : Portable (.record (some declared) fields)

/-- Whether a wire value is decoded to an equal of a value. -/
def DecodesTo (value : Value) (wire : Json) : Prop :=
  ∃ v, builtin.decode wire = .ok v ∧ v.same value = true

/-- What a step has to do to keep the value: its parts are portable and their types built, and wire
values that are decoded to equals of the parts make one that is decoded to an equal of the value. -/
def Step.Faithful (value : Value) : Step → Prop
  | .done result => ∀ wire, result = .ok wire → DecodesTo value wire
  | .handOn _ _ => True
  | .items values type finish => Wire.Built type ∧ (∀ v ∈ values, Portable v) ∧
    ∀ wires, List.Forall₂ DecodesTo values wires → DecodesTo value (finish wires)
  | .slots first second firstType secondType finish =>
    (Wire.Built firstType ∧ Wire.Built secondType ∧ Portable first ∧ Portable second) ∧
    ∀ w1 w2, DecodesTo first w1 → DecodesTo second w2 → DecodesTo value (finish w1 w2)
  | .entries es keyType valueType finish =>
    (Wire.Built keyType ∧ Wire.Built valueType ∧ ∀ e ∈ es, Portable e.1 ∧ Portable e.2) ∧
    ∀ wires, List.Forall₂ (fun e w => DecodesTo e.1 w.1 ∧ DecodesTo e.2 w.2) es wires →
      DecodesTo value (finish wires)
  | .fields fs finish =>
    (∀ f ∈ fs, Wire.Built f.2.2 ∧ ∀ v, f.2.1 = .ok v → Portable v) ∧
    ∀ wires, List.Forall₂ (fun f w => w.1 = f.1 ∧ ∃ v, f.2.1 = .ok v ∧ DecodesTo v w.2) fs wires →
      DecodesTo value (finish wires)

/-! ### Lists, pairs, maps and records -/

theorem decodesTo_items {values : List Value} {wires : List Json}
    (h : List.Forall₂ DecodesTo values wires) :
    ∃ vs, wires.mapM builtin.decode = .ok vs ∧ Value.sameItems vs values = true := by
  induction h with
  | nil => exact ⟨[], rfl, Value.sameItems_refl []⟩
  | cons hv _ ih =>
    obtain ⟨v, hdec, hsame⟩ := hv
    obtain ⟨vs, hdecs, hsames⟩ := ih
    refine ⟨v :: vs, ?_, ?_⟩
    · rw [List.mapM_cons, hdec, hdecs]
      rfl
    · rw [Value.sameItems, hsame, hsames, Bool.and_self]

theorem decodesTo_listWith {type : Json} (htype : Wire.typeId type = .ok TypeId.list)
    {values : List Value} {wires : List Json} (h : List.Forall₂ DecodesTo values wires) :
    DecodesTo (.list values) (Wire.listWith type wires) := by
  obtain ⟨vs, hdec, hsame⟩ := decodesTo_items h
  refine ⟨.list vs, ?_, by rw [Value.same, hsame]⟩
  rw [decode_listWith htype, hdec]
  rfl

theorem decodesTo_oldListWire {values : List Value} {wires : List Json}
    (h : List.Forall₂ DecodesTo values wires) : DecodesTo (.list values) (oldListWire wires) := by
  obtain ⟨vs, hdec, hsame⟩ := decodesTo_items h
  refine ⟨.list vs, ?_, by rw [Value.same, hsame]⟩
  rw [decode_oldListWire, hdec]
  rfl

theorem decodesTo_pairWire {type : Json} (htype : Wire.typeId type = .ok TypeId.pair)
    {first second : Value} {declared : Option Json} {w1 w2 : Json} (h1 : DecodesTo first w1)
    (h2 : DecodesTo second w2) : DecodesTo (.pair first second declared) (pairWire type w1 w2) := by
  obtain ⟨v1, hdec1, hsame1⟩ := h1
  obtain ⟨v2, hdec2, hsame2⟩ := h2
  refine ⟨.pair v1 v2 (some type), ?_, by rw [Value.same, hsame1, hsame2, Bool.and_self]⟩
  rw [decode_pairWire htype, hdec1, hdec2]
  rfl

theorem decodesTo_mapWire {type pairType : Json} (htype : Wire.typeId type = .ok TypeId.map)
    (hpair : Wire.typeId pairType = .ok TypeId.pair) {es : Value.Entries}
    (hdiffer : es.KeysDiffer) {wires : List (Json × Json)}
    (h : List.Forall₂ (fun e w => DecodesTo e.1 w.1 ∧ DecodesTo e.2 w.2) es wires) :
    DecodesTo (.map es) (mapWire type pairType wires) := by
  -- The entries that are decoded, one by one, equal those of the map.
  have hentries : ∃ fs : Value.Entries, List.Forall₂ (fun w f => builtin.decode w.1 = .ok f.1 ∧
      builtin.decode w.2 = .ok f.2) wires fs ∧ Value.sameEntries fs es = true := by
    clear hdiffer
    induction h with
    | nil => exact ⟨[], .nil, Value.sameEntries_refl []⟩
    | cons he _ ih =>
      obtain ⟨⟨k, hk, hsk⟩, v, hv, hsv⟩ := he
      obtain ⟨fs, hdec, hsame⟩ := ih
      refine ⟨(k, v) :: fs, .cons ⟨hk, hv⟩ hdec, ?_⟩
      rw [Value.sameEntries, hsk, hsv, hsame, Bool.and_self, Bool.and_self]
  obtain ⟨fs, hdec, hsame⟩ := hentries
  refine ⟨.map fs, ?_, by rw [Value.same, hsame]⟩
  exact decode_mapWire htype hpair hdec (hdiffer.congr hsame)

theorem decodesTo_fields {fields : Json.Fields Value} {wires : Json.Fields Json}
    (h : List.Forall₂ (fun f w => w.1 = f.1 ∧ ∃ v, (.ok f.2 : Except EncodeFailure Value) = .ok v ∧
      DecodesTo v w.2) fields wires) :
    wires.map (·.1) = fields.map (·.1) ∧
      ∃ vs, (wires.mapM fun w => do pure (w.1, ← builtin.decode w.2)) = .ok vs ∧
        Value.sameFields vs fields = true := by
  induction h with
  | nil => exact ⟨rfl, [], rfl, Value.sameFields_refl []⟩
  | @cons f w fields wires hf _ ih =>
    obtain ⟨hname, v, hv, u, hu, hsame⟩ := hf
    obtain rfl := Except.ok.inj hv
    obtain ⟨hkeys, vs, hvs, hsames⟩ := ih
    refine ⟨?_, (f.1, u) :: vs, ?_, ?_⟩
    · rw [List.map_cons, List.map_cons, hname, hkeys]
    · rw [List.mapM_cons, hu, hvs, hname]
      rfl
    · rw [Value.sameFields, beq_self_eq_true, hsame, hsames, Bool.and_self, Bool.and_self]

/-- A step is faithful if its wire value is decoded to an equal of the value. -/
theorem ok_faithful {value v : Value} {wire : Json} (hdec : builtin.decode wire = .ok v)
    (hsame : v.same value = true) : (Step.done (.ok wire)).Faithful value :=
  fun _ h => Except.ok.inj h ▸ ⟨v, hdec, hsame⟩

theorem slotStep_faithful {first second : Value} (h1 : Portable first) (h2 : Portable second)
    {type : Json} (htype : type = .null ∨ Wire.IsBuiltPair type) (declared : Option Json) :
    (slotStep first second type).Faithful (.pair first second declared) := by
  rcases htype with rfl | htype
  · have hstep : slotStep first second .null = .slots first second (Wire.reference TypeId.any)
        (Wire.reference TypeId.any) inferredPair := by
      rw [slotStep, Wire.argumentOf?]
      rintro _ ⟨⟩
    rw [hstep]
    exact ⟨⟨Wire.built_any, Wire.built_any, h1, h2⟩, fun w1 w2 hw1 hw2 =>
      decodesTo_pairWire (Wire.typeId_pairOf ..) hw1 hw2⟩
  · obtain ⟨hid, a, b, ha, hb, harg1, harg2⟩ := htype.spec
    have hstep : slotStep first second type = .slots first second a b (pairWire type) := by
      rw [slotStep, harg1, harg2]
    rw [hstep]
    exact ⟨⟨ha, hb, h1, h2⟩, fun w1 w2 hw1 hw2 => decodesTo_pairWire hid hw1 hw2⟩

theorem inferredStep_faithful {value : Value} (h : Portable value) :
    (inferredStep value).Faithful value := by
  cases h with
  | text s =>
    exact ok_faithful (decode_text s) (Value.same_refl _)
  | @reference id h =>
    refine ok_faithful (decode_reference id) ?_
    simp only [List.mem_cons, List.not_mem_nil, or_false, not_or] at h
    rw [valueOfId, if_neg h.2.2.1, if_neg h.2.2.2, if_neg (not_or.mpr ⟨h.1, h.2.1⟩)]
    exact Value.same_refl _
  | flag b =>
    exact ok_faithful (decode_booleanWire b) (Value.same_refl _)
  | unit =>
    exact ok_faithful decode_unitWire (Value.same_refl _)
  | list h =>
    exact ⟨Wire.built_any, h, fun wires hw => decodesTo_listWith (Wire.typeId_listOf _) hw⟩
  | @pair first second declared h1 h2 h =>
    refine slotStep_faithful h1 h2 ?_ declared
    cases declared with
    | none => exact .inl rfl
    | some type => exact .inr (h type rfl)
  | map hk hv h =>
    exact ⟨⟨Wire.built_any, Wire.built_any, fun e he => ⟨hk e he, hv e he⟩⟩, fun wires hw =>
      decodesTo_mapWire (Wire.typeId_mapOf ..) (Wire.typeId_pairOf ..) h hw⟩
  -- A record is handed on, or refused: there is no wire value at this step.
  | record hid henc hdec hk hno h =>
    rw [inferredStep]
    split
    · trivial
    · rintro wire hwire
      cases hwire

/-! ### Steps for built types -/

theorem misfit_faithful (value other : Value) (id : String) :
    (Step.misfit other id).Faithful value := by
  intro wire h
  cases h

theorem step_of_rule (rule : EncodeRule) {type : Json} {id : String} (hid : Wire.typeId type = .ok id)
    (hrule : builtin.encoders.find? id = some rule) (value : Value) :
    builtin.step value type = ruleStep value type rule := by
  rw [step, hid]
  simp only [hrule]

/-- The rules of the known types without arguments. -/
theorem plainStep_faithful {value : Value} (hv : Portable value) {type : Json} {id : String}
    (hid : id ∈ Wire.plainIds) (htype : Wire.typeId type = .ok id) :
    (builtin.step value type).Faithful value := by
  simp only [Wire.plainIds, List.mem_cons, List.not_mem_nil, or_false] at hid
  rcases hid with rfl | rfl | rfl | rfl | rfl | rfl | rfl | rfl
  · rw [step_of_rule .inferred htype rfl]
    exact inferredStep_faithful hv
  · rw [step_of_rule .text htype rfl]
    cases hv with
    | text s =>
      exact ok_faithful (decode_text s) (Value.same_refl _)
    | _ => exact misfit_faithful _ _ _
  · rw [step_of_rule .oldList htype rfl]
    cases hv with
    | list h => exact ⟨Wire.built_any, h, fun wires hw => decodesTo_oldListWire hw⟩
    | _ => exact misfit_faithful _ _ _
  · rw [step_of_rule .unit htype rfl]
    cases hv with
    | unit =>
      exact ok_faithful decode_unitWire (Value.same_refl _)
    | _ => exact misfit_faithful _ _ _
  · rw [step_of_rule (.sentinel TypeId.nothing) htype rfl]
    cases hv with
    | unit =>
      exact ok_faithful (decode_reference _) (Value.same_refl _)
    | _ => exact misfit_faithful _ _ _
  · rw [step_of_rule (.sentinel TypeId.void) htype rfl]
    cases hv with
    | unit =>
      exact ok_faithful (decode_reference _) (Value.same_refl _)
    | _ => exact misfit_faithful _ _ _
  · rw [step_of_rule .boolean htype rfl]
    cases hv with
    | flag b =>
      exact ok_faithful (decode_booleanWire b) (Value.same_refl _)
    | _ => exact misfit_faithful _ _ _
  · rw [step_of_rule .codePoint htype rfl]
    cases hv with
    | text s =>
      rw [ruleStep]
      split_ifs
      · exact ok_faithful (decode_codePointWire s) (Value.same_refl _)
      · exact misfit_faithful _ _ _
    | _ => exact misfit_faithful _ _ _

/-- Every step for a built type keeps a portable value. -/
theorem step_faithful {value : Value} (hv : Portable value) {type : Json} (ht : Wire.Built type) :
    (builtin.step value type).Faithful value := by
  rcases ht.spec with ⟨id, hid, htype⟩ | ⟨htype, element, he, harg⟩ | hpair |
    ⟨htype, key, val, hkey, hval, harg1, harg2⟩
  · exact plainStep_faithful hv hid htype
  · rw [step_of_rule .list htype rfl]
    cases hv with
    | list h =>
      rw [ruleStep, harg]
      exact ⟨he, h, fun wires hw => decodesTo_listWith htype hw⟩
    | _ => exact misfit_faithful _ _ _
  · rw [step_of_rule .pair hpair.spec.1 rfl]
    cases hv with
    | pair h1 h2 _ => exact slotStep_faithful h1 h2 (.inr hpair) _
    | _ => exact misfit_faithful _ _ _
  · rw [step_of_rule .map htype rfl]
    cases hv with
    | map hk hv h =>
      rw [ruleStep, harg1, harg2]
      exact ⟨⟨hkey, hval, fun e he => ⟨hk e he, hv e he⟩⟩, fun wires hw =>
        decodesTo_mapWire htype (Wire.typeId_pairOf ..) h hw⟩
    | _ => exact misfit_faithful _ _ _

/-- A type that is bare or a reference declares no keys. -/
theorem keysOfType?_of_idOfTag? {type : Json} {id : String} (h : Wire.idOfTag? type = some id) :
    keysOfType? type = .ok none := by
  cases type with
  | obj fields =>
    rw [Wire.idOfTag?] at h
    split_ifs at h with href
    obtain ⟨tag, htag, hstr⟩ := Option.bind_eq_some_iff.mp href
    have hid : (Json.field? (.obj fields) "Z1K1").bind Wire.idOfTag? = some TypeId.reference := by
      show (Json.Fields.find? fields "Z1K1").bind Wire.idOfTag? = _
      rw [htag]
      cases tag with
      | str s => exact hstr
      | _ => cases hstr
    rw [keysOfType?, hid]
    rfl
  | _ => rfl

/-- The step for a record and its own type keeps it. -/
theorem recordStep_faithful {declared : Json} {fields : Json.Fields Value}
    (h : Portable (.record (some declared) fields)) :
    (builtin.step (.record (some declared) fields) declared).Faithful
      (.record (some declared) fields) := by
  cases h with
  | @record _ id _ hid henc hdec hk hno h =>
  have htype := Wire.typeId_of_idOfTag? hid
  have hencoder : builtin.encoders.find? id = none := by simpa [hasEncoder] using henc
  have hdecoder : builtin.decoders.find? id = none := by simpa [hasDecoder] using hdec
  rw [step, htype]
  simp only [hencoder, recordStep, keysOfType?_of_idOfTag? hid]
  constructor
  · intro f hf
    obtain ⟨g, hg, rfl⟩ := List.mem_map.mp hf
    exact ⟨Wire.built_any, fun v hv => Except.ok.inj hv ▸ h g hg⟩
  · intro wires hw
    rw [List.forall₂_map_left_iff] at hw
    -- The fields keep their names, so they stay in order and none of them is the type.
    obtain ⟨hkeys, vs, hvs, hsame⟩ := decodesTo_fields hw
    have hascending : Json.Fields.Ascending wires := by
      rw [Json.Fields.Ascending, ← List.pairwise_map, hkeys, List.pairwise_map]
      exact hk
    refine ⟨.record (some declared) vs, ?_, ?_⟩
    · rw [decode_record htype hdecoder, Json.Fields.ofList_of_ascending hascending, hvs]
      · rfl
      · intro w hw
        obtain ⟨f, hf, heq⟩ := List.mem_map.mp (hkeys ▸ List.mem_map_of_mem hw)
        exact heq ▸ hno f hf
    · rw [Value.same, Value.sameDeclared_refl, hsame, Bool.and_self]

/-! ### From native values to the wire and back -/

/-- A faithful step whose parts come back builds a wire value that comes back. -/
theorem Step.Faithful.decodesTo {value : Value} {s : Step} (hs : s.Faithful value)
    (hbelow : s.Below (sizeOf value)) (hno : ∀ other finish, s ≠ .handOn other finish)
    {next : Value → Json → Except EncodeFailure Json}
    (ih : ∀ v t w, sizeOf v < sizeOf value → Portable v → Wire.Built t →
      builtin.encode v t = .ok w → DecodesTo v w)
    {wire : Json} (h : s.run builtin.encode next value = .ok wire) : DecodesTo value wire := by
  cases s with
  | done result => exact hs wire h
  | handOn other finish => exact absurd rfl (hno other finish)
  | items values type finish =>
    obtain ⟨ht, hv, hfinish⟩ := hs
    obtain ⟨wires, hwires, hwire⟩ := Traversal.bind_eq_ok_iff.mp h
    obtain rfl := Except.ok.inj hwire
    refine hfinish wires (Traversal.forall₂_of_mapM_eq_ok hwires fun v hmem w hw => ?_)
    exact ih v type w (hbelow v hmem) (hv v hmem) ht hw
  | slots first second firstType secondType finish =>
    obtain ⟨⟨ht1, ht2, hv1, hv2⟩, hfinish⟩ := hs
    obtain ⟨w1, hw1, h⟩ := Traversal.bind_eq_ok_iff.mp h
    obtain ⟨w2, hw2, hwire⟩ := Traversal.bind_eq_ok_iff.mp h
    obtain rfl := Except.ok.inj hwire
    exact hfinish w1 w2 (ih _ _ _ hbelow.1 hv1 ht1 hw1) (ih _ _ _ hbelow.2 hv2 ht2 hw2)
  | entries es keyType valueType finish =>
    obtain ⟨⟨hk, hv, hes⟩, hfinish⟩ := hs
    obtain ⟨wires, hwires, hwire⟩ := Traversal.bind_eq_ok_iff.mp h
    obtain rfl := Except.ok.inj hwire
    refine hfinish wires (Traversal.forall₂_of_mapM_eq_ok hwires fun e hmem w hw => ?_)
    obtain ⟨hkw, hvw⟩ := Traversal.pair_eq_ok_iff.mp hw
    exact ⟨ih _ _ _ (hbelow e hmem).1 (hes e hmem).1 hk hkw,
      ih _ _ _ (hbelow e hmem).2 (hes e hmem).2 hv hvw⟩
  | fields fs finish =>
    obtain ⟨hfs, hfinish⟩ := hs
    obtain ⟨wires, hwires, hwire⟩ := Traversal.bind_eq_ok_iff.mp h
    obtain rfl := Except.ok.inj hwire
    refine hfinish wires (Traversal.forall₂_of_mapM_eq_ok hwires ?_)
    rintro ⟨name, part, type⟩ hmem w hw
    cases part with
    | error failure => cases hw
    | ok v =>
      obtain ⟨x, hx, hw⟩ := Traversal.bind_eq_ok_iff.mp hw
      obtain rfl := Except.ok.inj hw
      obtain ⟨ht, hp⟩ := hfs _ hmem
      exact ⟨rfl, v, rfl, ih _ _ _ (hbelow _ hmem v rfl) (hp v rfl) ht hx⟩

theorem Portable.decodesTo {value : Value} (hv : Portable value) {type wire : Json}
    (ht : Wire.Built type) (h : builtin.encode value type = .ok wire) : DecodesTo value wire := by
  induction hsize : sizeOf value using Nat.strongRecOn generalizing value type wire with
  | ind size ih =>
    subst hsize
    have ih' : ∀ v t w, sizeOf v < sizeOf value → Portable v → Wire.Built t →
        builtin.encode v t = .ok w → DecodesTo v w :=
      fun v t w hlt hv ht hw => ih _ hlt hv ht hw rfl
    by_cases hs : ∃ other finish, builtin.step value type = .handOn other finish
    · -- A record is encoded for its own type.
      obtain ⟨declared, finish, hs⟩ := hs
      obtain ⟨htype, fields, rfl, hform, rfl⟩ := step_builtin_eq_handOn_iff.mp hs
      rw [encode_of_handOn htype hform] at h
      obtain ⟨id, hid, hencoder⟩ : ∃ id, Wire.idOfTag? declared = some id ∧
          builtin.hasEncoder id = false := by
        cases hv with
        | record hid henc => exact ⟨_, hid, henc⟩
      rw [encode_eq] at h
      refine (recordStep_faithful hv).decodesTo (step_below ..) (fun other finish hs' => ?_) ih' h
      -- It is not handed on again, since there is a rule for the type of all objects.
      have hany := (step_builtin_eq_handOn_iff.mp hs').1
      rw [Wire.typeId_of_idOfTag? hid] at hany
      rw [Except.ok.inj hany] at hencoder
      exact absurd hencoder (by decide)
    · rw [encode_eq] at h
      exact (step_faithful hv ht).decodesTo (step_below ..)
        (fun other finish h => hs ⟨other, finish, h⟩) ih' h

/-! ### Values that are always encoded -/

/-- The values without records and without declared types. -/
inductive Untyped : Value → Prop
  | text (s : String) : Untyped (.text s)
  | reference (id : String) : Untyped (.reference id)
  | flag (b : Bool) : Untyped (.flag b)
  | unit : Untyped .unit
  | list {items : List Value} (h : ∀ v ∈ items, Untyped v) : Untyped (.list items)
  | pair {first second : Value} (h1 : Untyped first) (h2 : Untyped second) :
    Untyped (.pair first second none)
  | map {entries : Value.Entries} (hk : ∀ e ∈ entries, Untyped e.1)
    (hv : ∀ e ∈ entries, Untyped e.2) : Untyped (.map entries)

theorem encodeAny_eq (value : Value) : builtin.encodeAny value =
    (inferredStep value).run builtin.encode (builtin.handedOn maxHops) value := by
  rw [encodeAny, encode_eq, step_of_rule .inferred (Wire.typeId_reference TypeId.any) rfl]
  rfl

/-- A list is encoded by its shape exactly when its items are. -/
theorem exists_encodeAny_list_iff {items : List Value} :
    (∃ wire, builtin.encodeAny (.list items) = .ok wire) ↔
      ∀ v ∈ items, ∃ w, builtin.encodeAny v = .ok w := by
  rw [encodeAny_eq]
  exact Traversal.exists_bind_pure_iff.trans Traversal.exists_mapM_eq_ok_iff

/-- A map is encoded by its shape exactly when its keys and values are. -/
theorem exists_encodeAny_map_iff {es : Value.Entries} :
    (∃ wire, builtin.encodeAny (.map es) = .ok wire) ↔
      ∀ e ∈ es, (∃ w, builtin.encodeAny e.1 = .ok w) ∧ ∃ w, builtin.encodeAny e.2 = .ok w := by
  rw [encodeAny_eq]
  refine Traversal.exists_bind_pure_iff.trans (Traversal.exists_mapM_eq_ok_iff.trans ?_)
  exact forall₂_congr fun e _ => Traversal.exists_pair_iff

/-- By its shape every value without declared types is encoded. -/
theorem Untyped.exists_encodeAny {value : Value} (h : Untyped value) :
    ∃ wire, builtin.encodeAny value = .ok wire := by
  induction h with
  | text s => exact ⟨_, encodeAny_eq _⟩
  | reference id => exact ⟨_, encodeAny_eq _⟩
  | flag b => exact ⟨_, encodeAny_eq _⟩
  | unit => exact ⟨_, encodeAny_eq _⟩
  | list _ ih => exact exists_encodeAny_list_iff.mpr ih
  | @pair first second _ _ ih1 ih2 =>
    obtain ⟨w1, hw1⟩ := ih1
    obtain ⟨w2, hw2⟩ := ih2
    have hstep : inferredStep (.pair first second none) = .slots first second
        (Wire.reference TypeId.any) (Wire.reference TypeId.any) inferredPair := by
      show slotStep first second .null = _
      rw [slotStep, Wire.argumentOf?]
      rintro _ ⟨⟩
    refine ⟨inferredPair w1 w2, ?_⟩
    rw [encodeAny_eq, hstep]
    exact Traversal.bind_eq_ok_iff.mpr
      ⟨w1, hw1, Traversal.bind_eq_ok_iff.mpr ⟨w2, hw2, rfl⟩⟩
  | map _ _ ihk ihv => exact exists_encodeAny_map_iff.mpr fun e he => ⟨ihk e he, ihv e he⟩

/-! ### The round trip -/

/-- What a portable value is encoded to for a built type is decoded to an equal value, and every
value without records and declared types is encoded by its shape. -/
theorem decode_encode_same :
    (∀ (type : Json) (value : Value) (wire : Json), Wire.Built type → Portable value →
      builtin.encode value type = .ok wire →
        ∃ decoded, builtin.decode wire = .ok decoded ∧ decoded.same value = true) ∧
      ∀ value, Untyped value → ∃ wire, builtin.encodeAny value = .ok wire :=
  ⟨fun _ _ _ ht hv h => hv.decodesTo ht h, fun _ h => h.exists_encodeAny⟩

/-- A list of pairs of a text and a truth value, by its descriptor, comes back. -/
theorem decode_encode_same_listDescriptor :
    ∃ wire decoded, builtin.encode (.list [.pair (.text "a") (.flag true) none])
        (Wire.listDescriptor (Wire.pairOf (.str "Z6") (.str "Z1"))) = .ok wire ∧
      builtin.decode wire = .ok decoded ∧
      decoded.same (.list [.pair (.text "a") (.flag true) none]) = true ∧
      ∃ wire', builtin.encodeAny (.list [.pair (.text "a") (.flag true) none]) = .ok wire' := by
  have hbuilt : Wire.Built (Wire.listDescriptor (Wire.pairOf (.str "Z6") (.str "Z1"))) :=
    .listDescriptor (.pairOf (.bare (by decide)) (.bare (by decide)))
  have hportable : Portable (.list [.pair (.text "a") (.flag true) none]) := by
    refine .list fun v hv => ?_
    rw [List.mem_singleton.mp hv]
    exact .pair (.text "a") (.flag true) (by rintro _ ⟨⟩)
  have huntyped : Untyped (.list [.pair (.text "a") (.flag true) none]) := by
    refine .list fun v hv => ?_
    rw [List.mem_singleton.mp hv]
    exact .pair (.text "a") (.flag true)
  have hwithin : encodeWithin builtin 3 (.list [.pair (.text "a") (.flag true) none])
      (Wire.listDescriptor (Wire.pairOf (.str "Z6") (.str "Z1"))) =
        .ok (Wire.listWith (Wire.listDescriptor (Wire.pairOf (.str "Z6") (.str "Z1")))
          [pairWire (Wire.pairOf (.str "Z6") (.str "Z1")) (Wire.text "a") (booleanWire true)]) := by
    cbv
  have hencode := (encode_eq_encodeWithin (by rw [hwithin]; rintro ⟨⟩)).trans hwithin
  obtain ⟨decoded, hdecoded, hsame⟩ := decode_encode_same.1 _ _ _ hbuilt hportable hencode
  exact ⟨_, decoded, hencode, hdecoded, hsame, decode_encode_same.2 _ huntyped⟩

end Codec

end Polyglot
