import Polyglot.Proofs.Codec.Regular

/-!
# What gets lost on the wire

A value that is encoded and decoded again may come back as another one.  `Intact` says of a value and
the type that it is encoded for that nothing of what is written gets lost: no reference names a sentinel
(`sentinels`), which is decoded to a value of its own, nor does a text that is written as a reference;
and no two keys of a map come back as equal ones (`ComesBackAs`), of which only one would be kept.

What is written of a value, and for which type, is what the step of the encoder asks for, so `Intact`
follows these steps: one equivalence for each kind of value takes it apart (`intact_list_iff`,
`intact_pair_iff`, `intact_map_iff`, `intact_record_iff`, `intact_handedOn_iff`).
-/

namespace Polyglot.Codec

/-! ### Sentinels -/

/-- The identifiers that are decoded to values of their own. -/
def sentinels : List String := [TypeId.nothing, TypeId.void, TypeId.true, TypeId.false]

theorem valueOfId_of_not_mem {id : String} (h : id ∉ sentinels) : valueOfId id = .reference id := by
  simp only [sentinels, List.mem_cons, List.not_mem_nil, or_false, not_or] at h
  obtain ⟨hnothing, hvoid, htrue, hfalse⟩ := h
  simp [valueOfId, hnothing, hvoid, htrue, hfalse]

/-- A sentinel is a truth value or has no value to speak of. -/
theorem valueOfId_of_mem {id : String} (h : id ∈ sentinels) :
    valueOfId id = .unit ∨ ∃ b, valueOfId id = .flag b := by
  simp only [sentinels, List.mem_cons, List.not_mem_nil, or_false] at h
  rcases h with rfl | rfl | rfl | rfl
  · exact .inl rfl
  · exact .inl rfl
  · exact .inr ⟨true, rfl⟩
  · exact .inr ⟨false, rfl⟩

/-! ### Intact values -/

/-- Whether a value is decoded to another one after it has been encoded for a type. -/
def ComesBackAs (value : Value) (type : Json) (decoded : Value) : Prop :=
  ∃ wire, builtin.encode value type = .ok wire ∧ builtin.decode wire = .ok decoded

/-- Whether no two keys come back as equal ones. -/
def KeysStayApart (entries : Value.Entries) (keyType : Json) : Prop :=
  entries.Pairwise fun e f => ∀ c d, ComesBackAs e.1 keyType c → ComesBackAs f.1 keyType d →
    c.same d = false

/-- Whether nothing of what is written of a value gets lost when it is encoded for a type: no reference
and no text that is written as one names a sentinel, and the keys of maps stay apart. -/
inductive Intact : Value → Json → Prop
  | text {s : String} {type : Json}
    (h : Wire.typeId type = .ok TypeId.reference → s ∉ sentinels) : Intact (.text s) type
  | reference {id : String} (type : Json) (h : id ∉ sentinels) : Intact (.reference id) type
  | flag (b : Bool) (type : Json) : Intact (.flag b) type
  | unit (type : Json) : Intact .unit type
  | list {items : List Value} {type item : Json} {finish : List Json → Json}
    (hstep : builtin.step (.list items) type = .items items item finish)
    (h : ∀ v ∈ items, Intact v item) : Intact (.list items) type
  | pair {first second : Value} {declared : Option Json} {type t1 t2 : Json}
    {finish : Json → Json → Json}
    (hstep : builtin.step (.pair first second declared) type = .slots first second t1 t2 finish)
    (h1 : Intact first t1) (h2 : Intact second t2) : Intact (.pair first second declared) type
  | map {entries : Value.Entries} {type keyType valueType : Json}
    {finish : List (Json × Json) → Json}
    (hstep : builtin.step (.map entries) type = .entries entries keyType valueType finish)
    (hk : ∀ e ∈ entries, Intact e.1 keyType) (hv : ∀ e ∈ entries, Intact e.2 valueType)
    (hapart : KeysStayApart entries keyType) : Intact (.map entries) type
  | record {declared : Option Json} {fields : Json.Fields Value} {type : Json}
    {parts : List (String × Except EncodeFailure Value × Json)}
    {finish : List (String × Json) → Json}
    (hstep : builtin.step (.record declared fields) type = .fields parts finish)
    (h : ∀ part ∈ parts, ∀ v, part.2.1 = .ok v → Intact v part.2.2) :
    Intact (.record declared fields) type
  | handedOn {declared : Option Json} {fields : Json.Fields Value} {type other : Json}
    {finish : Json → Json}
    (hstep : builtin.step (.record declared fields) type = .handOn other finish)
    (h : Intact (.record declared fields) other) : Intact (.record declared fields) type

theorem intact_text_iff {s : String} {type : Json} : Intact (.text s) type ↔
    (Wire.typeId type = .ok TypeId.reference → s ∉ sentinels) :=
  ⟨fun | .text h => h, .text⟩

theorem intact_reference_iff {id : String} {type : Json} :
    Intact (.reference id) type ↔ id ∉ sentinels :=
  ⟨fun | .reference _ h => h, .reference type⟩

theorem intact_list_iff {items : List Value} {type item : Json} {finish : List Json → Json}
    (hstep : builtin.step (.list items) type = .items items item finish) :
    Intact (.list items) type ↔ ∀ v ∈ items, Intact v item := by
  refine ⟨fun h => ?_, .list hstep⟩
  cases h with
  | list hother h =>
    obtain ⟨-, rfl, -⟩ := Step.items.inj (hother.symm.trans hstep)
    exact h

theorem intact_pair_iff {first second : Value} {declared : Option Json} {type t1 t2 : Json}
    {finish : Json → Json → Json}
    (hstep : builtin.step (.pair first second declared) type = .slots first second t1 t2 finish) :
    Intact (.pair first second declared) type ↔ Intact first t1 ∧ Intact second t2 := by
  refine ⟨fun h => ?_, fun h => .pair hstep h.1 h.2⟩
  cases h with
  | pair hother h1 h2 =>
    obtain ⟨-, -, rfl, rfl, -⟩ := Step.slots.inj (hother.symm.trans hstep)
    exact ⟨h1, h2⟩

theorem intact_map_iff {entries : Value.Entries} {type keyType valueType : Json}
    {finish : List (Json × Json) → Json}
    (hstep : builtin.step (.map entries) type = .entries entries keyType valueType finish) :
    Intact (.map entries) type ↔ KeysStayApart entries keyType ∧
      ∀ e ∈ entries, Intact e.1 keyType ∧ Intact e.2 valueType := by
  refine ⟨fun h => ?_, fun ⟨hapart, h⟩ =>
    .map hstep (fun e he => (h e he).1) (fun e he => (h e he).2) hapart⟩
  cases h with
  | map hother hk hv hapart =>
    obtain ⟨-, rfl, rfl, -⟩ := Step.entries.inj (hother.symm.trans hstep)
    exact ⟨hapart, fun e he => ⟨hk e he, hv e he⟩⟩

theorem intact_record_iff {declared : Option Json} {fields : Json.Fields Value} {type : Json}
    {parts : List (String × Except EncodeFailure Value × Json)} {finish : List (String × Json) → Json}
    (hstep : builtin.step (.record declared fields) type = .fields parts finish) :
    Intact (.record declared fields) type ↔
      ∀ part ∈ parts, ∀ v, part.2.1 = .ok v → Intact v part.2.2 := by
  refine ⟨fun h => ?_, .record hstep⟩
  cases h with
  | record hother h =>
    obtain ⟨rfl, -⟩ := Step.fields.inj (hother.symm.trans hstep)
    exact h
  | handedOn hother h => cases hother.symm.trans hstep

/-- A record that is handed on is intact for the type that it is handed on to. -/
theorem intact_handedOn_iff {declared : Option Json} {fields : Json.Fields Value} {type other : Json}
    {finish : Json → Json}
    (hstep : builtin.step (.record declared fields) type = .handOn other finish) :
    Intact (.record declared fields) type ↔ Intact (.record declared fields) other := by
  refine ⟨fun h => ?_, .handedOn hstep⟩
  cases h with
  | record hother h => cases hother.symm.trans hstep
  | handedOn hother h =>
    obtain ⟨rfl, -⟩ := Step.handOn.inj (hother.symm.trans hstep)
    exact h

/-! ### Keys -/

/-- What was encoded and decoded tells whether keys stay apart. -/
theorem keysStayApart_iff {entries decoded : Value.Entries} {keyType : Json}
    (h : List.Forall₂ (fun e d => ComesBackAs e.1 keyType d.1) entries decoded) :
    KeysStayApart entries keyType ↔ decoded.KeysDiffer := by
  have hunique : ∀ {v c d}, ComesBackAs v keyType c → ComesBackAs v keyType d → c = d := by
    rintro v c d ⟨wire, hwire, hc⟩ ⟨wire', hwire', hd⟩
    obtain rfl := Except.ok.inj (hwire.symm.trans hwire')
    exact Except.ok.inj (hc.symm.trans hd)
  refine Traversal.pairwise_iff_of_forall₂ h fun e c f d he hf => ?_
  constructor
  · intro hapart
    exact hapart c.1 d.1 he hf
  · intro hdiffer c' d' hc hd
    rw [hunique hc he, hunique hd hf]
    exact hdiffer

end Polyglot.Codec
