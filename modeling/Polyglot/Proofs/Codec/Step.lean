import Polyglot.Codec.Encoding
import Polyglot.Proofs.Codec.Traversal
import Polyglot.Proofs.Json.WellFormed

/-!
# What encoding makes of a step

`Step.run` puts the wire value of a step together from those of its parts.  Encoding takes one step
and runs it with itself for the parts (`encodeHop_eq`).  With the rules known by name only a record
that is asked for as any object is handed on, to its declared type (`step_builtin_eq_handOn_iff`).
-/

namespace Polyglot.Codec

/-- The wire value of a step, with what encodes the parts and what encodes a value handed on. -/
def Step.run (enc next : Value → Json → Except EncodeFailure Json) (value : Value) :
    Step → Except EncodeFailure Json
  | .done result => result
  | .handOn other finish => (next value other).map finish
  | .items values type finish => do
    let encoded ← values.mapM fun v => enc v type
    pure (finish encoded)
  | .slots first second firstType secondType finish => do
    let k1 ← enc first firstType
    let k2 ← enc second secondType
    pure (finish k1 k2)
  | .entries es keyType valueType finish => do
    let encoded ← es.mapM fun (k, v) => do
      let k ← enc k keyType
      let v ← enc v valueType
      pure (k, v)
    pure (finish encoded)
  | .fields fs finish => do
    let encoded ← fs.mapM fun (name, part, partType) =>
      match part with
      | .error failure => .error failure
      | .ok v => do pure (name, ← enc v partType)
    pure (finish encoded)

/-- What encodes a value that has been handed on, with so many times left. -/
def handedOn (codec : Codec) : (hops : Nat) → Value → Json → Except EncodeFailure Json
  | 0, _, _ => .error .endless
  | hops + 1, value, type => encodeHop codec hops value type

theorem encodeHop_eq (codec : Codec) (hops : Nat) (value : Value) (type : Json) :
    encodeHop codec hops value type =
      (codec.step value type).run codec.encode (codec.handedOn hops) value := by
  rw [encodeHop]
  split
  · rename_i h
    rw [h]
    rfl
  · rename_i h
    rw [h]
    cases hops <;> rfl
  · rename_i h
    rw [h, List.mapM_subtype (g := fun v => codec.encode v _) fun _ _ => rfl, List.unattach_attach]
    rfl
  · rename_i h
    rw [h]
    rfl
  -- `es.attach` is traversed so that the calls are seen to be on smaller values.
  · rename_i keyType valueType _ h
    rw [h, List.mapM_subtype (g := fun e => do
      let k ← codec.encode e.1 keyType
      let v ← codec.encode e.2 valueType
      pure (k, v)) fun _ _ => rfl, List.unattach_attach]
    rfl
  · rename_i h
    rw [h, List.mapM_subtype (g := fun (f : String × Except EncodeFailure Value × Json) =>
      match f.2.1 with
      | .error failure => Except.error failure
      | .ok v => do pure (f.1, ← codec.encode v f.2.2)) ?_, List.unattach_attach]
    · rfl
    · rintro ⟨name, part, partType⟩ _
      cases part <;> rfl

/-! ### What a step depends on -/

/-- Encoders that agree on what is smaller, wherever encoding ends, agree on a step that ends. -/
theorem Step.run_eq_of_ne_endless {enc enc' next next' : Value → Json → Except EncodeFailure Json}
    {value : Value} {size : Nat} {s : Step} (hbelow : s.Below size)
    (henc : ∀ v t, sizeOf v < size → enc v t ≠ .error .endless → enc' v t = enc v t)
    (hnext : ∀ other finish, s = .handOn other finish →
      next value other ≠ .error .endless → next' value other = next value other)
    (h : s.run enc next value ≠ .error .endless) :
    s.run enc' next' value = s.run enc next value := by
  cases s with
  | done result => rfl
  | handOn other finish =>
    have hne : next value other ≠ .error .endless := by
      intro he
      rw [run, he] at h
      exact h rfl
    rw [run, run, hnext other finish rfl hne]
  | items values type finish =>
    refine Traversal.bind_eq_of_ne_error ?_ (fun _ _ _ => rfl) h
    exact Traversal.mapM_eq_of_ne_error fun v hv => henc v type (hbelow v hv)
  | slots first second firstType secondType finish =>
    refine Traversal.bind_eq_of_ne_error (henc first firstType hbelow.1) (fun k1 _ => ?_) h
    exact Traversal.bind_eq_of_ne_error (henc second secondType hbelow.2) fun _ _ _ => rfl
  | entries es keyType valueType finish =>
    refine Traversal.bind_eq_of_ne_error ?_ (fun _ _ _ => rfl) h
    refine Traversal.mapM_eq_of_ne_error fun e he => ?_
    refine Traversal.bind_eq_of_ne_error (henc e.1 keyType (hbelow e he).1) fun k _ => ?_
    exact Traversal.bind_eq_of_ne_error (henc e.2 valueType (hbelow e he).2) fun _ _ _ => rfl
  | fields fs finish =>
    refine Traversal.bind_eq_of_ne_error ?_ (fun _ _ _ => rfl) h
    refine Traversal.mapM_eq_of_ne_error ?_
    rintro ⟨name, part, partType⟩ hf
    cases part with
    | error failure => exact fun _ => rfl
    | ok v => exact Traversal.bind_eq_of_ne_error (henc v partType (hbelow _ hf v rfl)) fun _ _ _ => rfl

/-- Whether a step ends, if its parts do. -/
def Step.Ends : Step → Prop
  | .done result => result ≠ .error .endless
  | .fields fs _ => ∀ f ∈ fs, f.2.1 ≠ .error .endless
  | _ => True

theorem slotStep_ends (first second : Value) (type : Json) : (slotStep first second type).Ends := by
  unfold slotStep
  split <;> trivial

theorem inferredStep_ends (value : Value) : (inferredStep value).Ends := by
  cases value with
  | pair first second declared => exact slotStep_ends ..
  | record declared fields =>
    rw [inferredStep]
    split
    · trivial
    · rintro ⟨⟩
  | list items => trivial
  | map entries => trivial
  | _ => rintro ⟨⟩

theorem recordStep_ends (value : Value) (type : Json) (id : String) :
    (recordStep value type id).Ends := by
  cases value with
  | record declared fields =>
    rw [recordStep]
    split
    · rintro ⟨⟩
    · intro f hf
      obtain ⟨⟨name, keyType⟩, _, rfl⟩ := List.mem_map.mp hf
      dsimp only
      split <;> rintro ⟨⟩
    · intro f hf
      obtain ⟨field, _, rfl⟩ := List.mem_map.mp hf
      rintro ⟨⟩
  | _ => rintro ⟨⟩

theorem ruleStep_ends (value : Value) (type : Json) (rule : EncodeRule) :
    (ruleStep value type rule).Ends := by
  cases rule with
  | inferred => exact inferredStep_ends value
  | within key => trivial
  | pair =>
    cases value with
    | pair first second declared => exact slotStep_ends ..
    | _ => rintro ⟨⟩
  | oldList => cases value <;> first | trivial | rintro ⟨⟩
  | reference | codePoint | list | map =>
    cases value <;> first
      | rintro ⟨⟩
      | (rw [ruleStep]; split <;> first | trivial | rintro ⟨⟩)
  | _ => cases value <;> rintro ⟨⟩

theorem step_ends (codec : Codec) (value : Value) (type : Json) : (codec.step value type).Ends := by
  rw [step]
  split
  · rintro ⟨⟩
  · split
    · exact ruleStep_ends ..
    · exact recordStep_ends ..

/-! ### What is handed on -/

theorem builtin_encoder_mem {id : String} {rule : EncodeRule}
    (h : builtin.encoders.find? id = some rule) :
    (id, rule) ∈ [(TypeId.any, EncodeRule.inferred), (TypeId.string, .text),
      (TypeId.reference, .reference), (TypeId.oldList, .oldList), (TypeId.unit, .unit),
      (TypeId.nothing, .sentinel TypeId.nothing), (TypeId.void, .sentinel TypeId.void),
      (TypeId.boolean, .boolean), (TypeId.codePoint, .codePoint), (TypeId.list, .list),
      (TypeId.pair, .pair), (TypeId.map, .map)] :=
  Json.Fields.mem_ofList (Json.Fields.mem_of_find? h)

theorem slotStep_ne_handOn (first second : Value) (type other : Json) (finish : Json → Json) :
    slotStep first second type ≠ .handOn other finish := by
  unfold slotStep
  split <;> rintro ⟨⟩

/-- By its shape only a record is handed on, to its declared type. -/
theorem inferredStep_eq_handOn_iff {value : Value} {other : Json} {finish : Json → Json} :
    inferredStep value = .handOn other finish ↔
      ∃ fields, value = .record (some other) fields ∧ Wire.isAny other = false ∧ finish = id := by
  constructor
  · intro h
    cases value with
    | pair first second declared => exact absurd h (slotStep_ne_handOn _ _ _ _ _)
    | record declared fields =>
      rw [inferredStep] at h
      split at h
      · rename_i type hd
        obtain ⟨rfl, rfl⟩ := Step.handOn.inj h
        obtain ⟨rfl, ha⟩ := Option.filter_eq_some_iff.mp hd
        exact ⟨fields, rfl, by simpa using ha, rfl⟩
      · cases h
    | _ => cases h
  · rintro ⟨fields, rfl, ha, rfl⟩
    rw [inferredStep]
    simp [Option.filter, ha]

theorem recordStep_ne_handOn (value : Value) (type : Json) (id : String) (other : Json)
    (finish : Json → Json) : recordStep value type id ≠ .handOn other finish := by
  intro h
  cases value with
  | record declared fields =>
    rw [recordStep] at h
    split at h <;> cases h
  | _ => cases h

/-- The rules that may hand a value on. -/
theorem rule_of_ruleStep_eq_handOn {value : Value} {type other : Json} {rule : EncodeRule}
    {finish : Json → Json} (h : ruleStep value type rule = .handOn other finish) :
    rule = .inferred ∨ ∃ key, rule = .within key := by
  cases rule with
  | inferred => exact .inl rfl
  | within key => exact .inr ⟨key, rfl⟩
  | pair =>
    cases value with
    | pair first second declared => exact absurd h (slotStep_ne_handOn _ _ _ _ _)
    | _ => cases h
  | reference | codePoint | list | map =>
    cases value <;> first | contradiction | (rw [ruleStep] at h; split at h <;> contradiction)
  | _ => cases value <;> contradiction

/-- Only against the type of all objects is a value handed on: a record, to its declared type. -/
theorem step_builtin_eq_handOn_iff {value : Value} {type other : Json} {finish : Json → Json} :
    builtin.step value type = .handOn other finish ↔
      Wire.typeId type = .ok TypeId.any ∧
        ∃ fields, value = .record (some other) fields ∧ Wire.isAny other = false ∧ finish = id := by
  rw [← inferredStep_eq_handOn_iff]
  constructor
  · intro h
    rw [step] at h
    split at h
    · cases h
    · rename_i id hid
      rw [hid]
      split at h
      · rename_i rule hrule
        -- Of the rules that may hand a value on, only that of the type of all objects is known.
        have hmem := builtin_encoder_mem hrule
        obtain rfl | ⟨key, rfl⟩ := rule_of_ruleStep_eq_handOn h
        · obtain rfl : id = TypeId.any := by simpa using hmem
          exact ⟨rfl, h⟩
        · simp at hmem
      · exact absurd h (recordStep_ne_handOn _ _ _ _ _)
  · rintro ⟨htype, h⟩
    rw [step, htype]
    exact h

end Polyglot.Codec
