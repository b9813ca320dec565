import Mathlib.Logic.Basic
import Mathlib.Tactic.ByContra
import Polyglot.Codec.Decoding
import Polyglot.Proofs.Codec.Step

/-!
# When encoding ends

Encoding calls itself for the parts of a value, and once more for the same value when this is a
record that is asked for as any object.  `encodeWithin` is the same recursion with a bound on how
deep the calls go, and encoding ends when some bound is enough.

It does so unless it comes to a record whose declared type denotes the type of all objects but is not
written as it (`ForEver`, `encode_ends_iff`): this record is handed on to its declared type again and
again.
-/

namespace Polyglot.Codec

/-- The wire form of a value for the type asked for, by calls that go no deeper than the given
depth. -/
def encodeWithin (codec : Codec) : (depth : Nat) → Value → Json → Except EncodeFailure Json
  | 0, _, _ => .error .endless
  | depth + 1, value, type =>
    (codec.step value type).run (encodeWithin codec depth) (encodeWithin codec depth) value

/-- Whether some depth is enough for a value and the type asked for. -/
def Ends (codec : Codec) (value : Value) (type : Json) : Prop :=
  ∃ depth, encodeWithin codec depth value type ≠ .error .endless

/-! ### Parts that are reached -/

/-- Whether encoding comes to a part of a step, which it does when all parts before have a wire
form. -/
inductive Step.Reaches (Encodes : Value → Json → Prop) : Step → Value → Json → Prop
  | item {before after : List Value} {v : Value} {type : Json} {finish : List Json → Json}
    (h : ∀ u ∈ before, Encodes u type) : Reaches Encodes (.items (before ++ v :: after) type finish) v type
  | first {v w : Value} {t u : Json} {finish : Json → Json → Json} :
    Reaches Encodes (.slots v w t u finish) v t
  | second {v w : Value} {t u : Json} {finish : Json → Json → Json} (h : Encodes v t) :
    Reaches Encodes (.slots v w t u finish) w u
  | key {before after : Value.Entries} {k v : Value} {keyType valueType : Json}
    {finish : List (Json × Json) → Json}
    (h : ∀ e ∈ before, Encodes e.1 keyType ∧ Encodes e.2 valueType) :
    Reaches Encodes (.entries (before ++ (k, v) :: after) keyType valueType finish) k keyType
  | value {before after : Value.Entries} {k v : Value} {keyType valueType : Json}
    {finish : List (Json × Json) → Json}
    (h : ∀ e ∈ before, Encodes e.1 keyType ∧ Encodes e.2 valueType) (hk : Encodes k keyType) :
    Reaches Encodes (.entries (before ++ (k, v) :: after) keyType valueType finish) v valueType
  | field {before after : List (String × Except EncodeFailure Value × Json)} {name : String}
    {v : Value} {type : Json} {finish : List (String × Json) → Json}
    (h : ∀ f ∈ before, ∃ u, f.2.1 = .ok u ∧ Encodes u f.2.2) :
    Reaches Encodes (.fields (before ++ (name, .ok v, type) :: after) finish) v type

variable {enc next : Value → Json → Except EncodeFailure Json} {value : Value} {s : Step}

theorem Step.Reaches.below {Encodes : Value → Json → Prop} {v : Value} {type : Json} {size : Nat}
    (h : s.Reaches Encodes v type) (hbelow : s.Below size) : sizeOf v < size := by
  cases h with
  | item => exact hbelow v (List.mem_append_right _ List.mem_cons_self)
  | first => exact hbelow.1
  | second => exact hbelow.2
  | key => exact (hbelow _ (List.mem_append_right _ List.mem_cons_self)).1
  | value => exact (hbelow _ (List.mem_append_right _ List.mem_cons_self)).2
  | field => exact hbelow _ (List.mem_append_right _ List.mem_cons_self) v rfl

/-- A step that fails to end hands its value on to something that does, or reaches a part that
does. -/
theorem Step.reaches_of_run_eq_endless (hends : s.Ends) (h : s.run enc next value = .error .endless) :
    (∃ other finish, s = .handOn other finish ∧ next value other = .error .endless) ∨
      ∃ v type, s.Reaches (fun v t => ∃ wire, enc v t = .ok wire) v type ∧
        enc v type = .error .endless := by
  cases s with
  | done result => exact absurd h hends
  | handOn other finish =>
    refine .inl ⟨other, finish, rfl, ?_⟩
    cases hn : next value other with
    | error e =>
      rw [run, hn] at h
      exact h
    | ok wire =>
      rw [run, hn] at h
      cases h
  | items values type finish =>
    obtain h | ⟨_, _, h⟩ := Traversal.bind_eq_error_iff.mp h
    · obtain ⟨before, v, after, rfl, hb, hv⟩ := Traversal.mapM_eq_error_iff.mp h
      exact .inr ⟨v, type, .item hb, hv⟩
    · cases h
  | slots first second firstType secondType finish =>
    obtain h | ⟨k1, hk1, h⟩ := Traversal.bind_eq_error_iff.mp h
    · exact .inr ⟨first, firstType, .first, h⟩
    · obtain h | ⟨_, _, h⟩ := Traversal.bind_eq_error_iff.mp h
      · exact .inr ⟨second, secondType, .second ⟨k1, hk1⟩, h⟩
      · cases h
  | entries es keyType valueType finish =>
    obtain h | ⟨_, _, h⟩ := Traversal.bind_eq_error_iff.mp h
    · obtain ⟨before, ⟨k, v⟩, after, rfl, hb, hv⟩ := Traversal.mapM_eq_error_iff.mp h
      have hbefore : ∀ e ∈ before, (∃ wire, enc e.1 keyType = .ok wire) ∧
          ∃ wire, enc e.2 valueType = .ok wire := by
        intro e he
        obtain ⟨w, hw⟩ := hb e he
        obtain ⟨h1, h2⟩ := Traversal.pair_eq_ok_iff.mp hw
        exact ⟨⟨w.1, h1⟩, w.2, h2⟩
      obtain h | ⟨w, hw, h⟩ := Traversal.bind_eq_error_iff.mp hv
      · exact .inr ⟨k, keyType, .key hbefore, h⟩
      · obtain h | ⟨_, _, h⟩ := Traversal.bind_eq_error_iff.mp h
        · exact .inr ⟨v, valueType, .value hbefore ⟨w, hw⟩, h⟩
        · cases h
    · cases h
  | fields fs finish =>
    obtain h | ⟨_, _, h⟩ := Traversal.bind_eq_error_iff.mp h
    · obtain ⟨before, ⟨name, part, type⟩, after, rfl, hb, hv⟩ := Traversal.mapM_eq_error_iff.mp h
      have hbefore : ∀ f ∈ before, ∃ u, f.2.1 = .ok u ∧ ∃ wire, enc u f.2.2 = .ok wire := by
        rintro ⟨n, p, t⟩ hf
        obtain ⟨z, hz⟩ := hb _ hf
        cases p with
        | error failure => cases hz
        | ok u =>
          obtain ⟨w, hw, _⟩ := Traversal.bind_eq_ok_iff.mp hz
          exact ⟨u, rfl, w, hw⟩
      cases part with
      | error failure =>
        -- A field that is missing fails otherwise.
        have hne : failure ≠ .endless := fun he =>
          hends (name, .error failure, type) (by simp) (by rw [he])
        exact absurd (Except.error.inj hv) hne
      | ok v =>
        obtain h | ⟨_, _, h⟩ := Traversal.bind_eq_error_iff.mp hv
        · exact .inr ⟨v, type, .field hbefore, h⟩
        · cases h
    · cases h

/-- A step that reaches a part that does not end does not end either. -/
theorem Step.Reaches.run_eq_endless {v : Value} {type : Json}
    (hreach : s.Reaches (fun v t => ∃ wire, enc v t = .ok wire) v type)
    (hv : enc v type = .error .endless) : s.run enc next value = .error .endless := by
  have hpairs : ∀ {es : Value.Entries} {keyType valueType : Json},
      (∀ e ∈ es, (∃ wire, enc e.1 keyType = .ok wire) ∧ ∃ wire, enc e.2 valueType = .ok wire) →
        ∀ e ∈ es, ∃ w : Json × Json,
          (do let k ← enc e.1 keyType; let v ← enc e.2 valueType; pure (k, v)) = Except.ok w := by
    intro es keyType valueType h e he
    obtain ⟨⟨k, hk⟩, w, hw⟩ := h e he
    exact ⟨(k, w), Traversal.pair_eq_ok_iff.mpr ⟨hk, hw⟩⟩
  cases hreach with
  | item h =>
    exact Traversal.bind_eq_error_iff.mpr
      (.inl (Traversal.mapM_eq_error_iff.mpr ⟨_, v, _, rfl, h, hv⟩))
  | first => exact Traversal.bind_eq_error_iff.mpr (.inl hv)
  | second h =>
    obtain ⟨k1, hk1⟩ := h
    refine Traversal.bind_eq_error_iff.mpr (.inr ⟨k1, hk1, ?_⟩)
    exact Traversal.bind_eq_error_iff.mpr (.inl hv)
  | key h =>
    refine Traversal.bind_eq_error_iff.mpr
      (.inl (Traversal.mapM_eq_error_iff.mpr ⟨_, _, _, rfl, hpairs h, ?_⟩))
    exact Traversal.bind_eq_error_iff.mpr (.inl hv)
  | value h hk =>
    obtain ⟨k, hk⟩ := hk
    refine Traversal.bind_eq_error_iff.mpr
      (.inl (Traversal.mapM_eq_error_iff.mpr ⟨_, _, _, rfl, hpairs h, ?_⟩))
    refine Traversal.bind_eq_error_iff.mpr (.inr ⟨k, hk, ?_⟩)
    exact Traversal.bind_eq_error_iff.mpr (.inl hv)
  | field h =>
    refine Traversal.bind_eq_error_iff.mpr
      (.inl (Traversal.mapM_eq_error_iff.mpr ⟨_, _, _, rfl, ?_, ?_⟩))
    · rintro ⟨name, part, t⟩ hf
      obtain ⟨u, rfl, w, hw⟩ := h _ hf
      exact ⟨(name, w), Traversal.bind_eq_ok_iff.mpr ⟨w, hw, rfl⟩⟩
    · exact Traversal.bind_eq_error_iff.mpr (.inl hv)

/-! ### Records that are handed on for ever -/

/-- Encoding that comes to a record whose declared type denotes the type of all objects without being
written as it. -/
inductive ForEver : Value → Json → Prop
  | loop {declared type : Json} {fields : Json.Fields Value} (htype : Wire.typeId type = .ok TypeId.any)
    (hdeclared : Wire.typeId declared = .ok TypeId.any) (hform : Wire.isAny declared = false) :
    ForEver (.record (some declared) fields) type
  | declared {declared type : Json} {fields : Json.Fields Value}
    (htype : Wire.typeId type = .ok TypeId.any) (hform : Wire.isAny declared = false)
    (h : ForEver (.record (some declared) fields) declared) :
    ForEver (.record (some declared) fields) type
  | part {value part : Value} {type partType : Json}
    (hreach : (builtin.step value type).Reaches
      (fun v t => ∃ wire, builtin.encode v t = .ok wire) part partType)
    (h : ForEver part partType) : ForEver value type

theorem encode_eq (codec : Codec) (value : Value) (type : Json) : codec.encode value type =
    (codec.step value type).run codec.encode (codec.handedOn maxHops) value :=
  encodeHop_eq codec maxHops value type

/-- A value that is not handed on is encoded in the same way however often it has been before. -/
theorem encodeHop_of_not_handOn {codec : Codec} {value : Value} {type : Json}
    (h : ∀ other finish, codec.step value type ≠ .handOn other finish) (hops : Nat) :
    encodeHop codec hops value type = codec.encode value type := by
  rw [encode_eq, encodeHop_eq]
  cases hs : codec.step value type with
  | handOn other finish => exact absurd hs (h other finish)
  | _ => rfl

/-- A record that is handed on to a type that denotes the type of all objects is not encoded. -/
theorem encodeHop_loop {declared : Json} {fields : Json.Fields Value}
    (hdeclared : Wire.typeId declared = .ok TypeId.any) (hform : Wire.isAny declared = false)
    (hops : Nat) {type : Json} (htype : Wire.typeId type = .ok TypeId.any) :
    encodeHop builtin hops (.record (some declared) fields) type = .error .endless := by
  -- The step is the same for every type of that kind, so it is taken until no hops are left.
  have hstep : ∀ {type}, Wire.typeId type = .ok TypeId.any →
      builtin.step (.record (some declared) fields) type = .handOn declared id :=
    fun h => step_builtin_eq_handOn_iff.mpr ⟨h, fields, rfl, hform, rfl⟩
  induction hops generalizing type with
  | zero =>
    rw [encodeHop_eq, hstep htype]
    rfl
  | succ hops ih =>
    rw [encodeHop_eq, hstep htype, Step.run, handedOn, ih hdeclared]
    rfl

/-- What has been handed on and ends is not handed on again. -/
theorem not_handOn_of_ne_endless {value : Value} {type declared : Json} {finish : Json → Json}
    (hs : builtin.step value type = .handOn declared finish) {hops : Nat}
    (hne : encodeHop builtin hops value declared ≠ .error .endless) (other : Json)
    (finish' : Json → Json) : builtin.step value declared ≠ .handOn other finish' := by
  intro hs'
  obtain ⟨-, fields, rfl, hform, -⟩ := step_builtin_eq_handOn_iff.mp hs
  obtain ⟨hdeclared, -⟩ := step_builtin_eq_handOn_iff.mp hs'
  exact hne (encodeHop_loop hdeclared hform hops hdeclared)

/-- What is handed on is encoded for its declared type. -/
theorem encode_of_handOn {declared type : Json} {fields : Json.Fields Value}
    (htype : Wire.typeId type = .ok TypeId.any) (hform : Wire.isAny declared = false) :
    builtin.encode (.record (some declared) fields) type =
      builtin.encode (.record (some declared) fields) declared := by
  have hid : ∀ r : Except EncodeFailure Json, r.map id = r := fun r => by cases r <;> rfl
  rw [encode_eq builtin _ type, step_builtin_eq_handOn_iff.mpr ⟨htype, fields, rfl, hform, rfl⟩,
    Step.run, hid]
  by_cases hdeclared : Wire.typeId declared = .ok TypeId.any
  -- Neither of the two ends.
  · rw [show handedOn builtin maxHops = encodeHop builtin 1 from rfl, encode,
      encodeHop_loop hdeclared hform _ hdeclared, encodeHop_loop hdeclared hform _ hdeclared]
  · exact encodeHop_of_not_handOn
      (fun other finish h => hdeclared (step_builtin_eq_handOn_iff.mp h).1) _

theorem ForEver.encode_eq_endless {value : Value} {type : Json} (h : ForEver value type) :
    builtin.encode value type = .error .endless := by
  induction h with
  | loop htype hdeclared hform => exact encodeHop_loop hdeclared hform _ htype
  | declared htype hform _ ih => rw [encode_of_handOn htype hform, ih]
  | part hreach _ ih =>
    rw [encode_eq]
    exact hreach.run_eq_endless ih

/-- Encoding is endless only for a reason. -/
theorem forEver_of_encode_eq_endless (value : Value) (type : Json)
    (h : builtin.encode value type = .error .endless) : ForEver value type := by
  induction hsize : sizeOf value using Nat.strongRecOn generalizing value type with
  | ind size ih =>
    subst hsize
    -- A part that is reached is smaller than the value.
    have hpart : ∀ {type}, builtin.encode value type = .error .endless →
        (∀ other finish, builtin.step value type ≠ .handOn other finish) → ForEver value type := by
      intro type h hno
      rw [encode_eq] at h
      obtain ⟨other, finish, hs, _⟩ | ⟨v, t, hreach, hv⟩ :=
        Step.reaches_of_run_eq_endless (step_ends ..) h
      · exact absurd hs (hno other finish)
      · exact .part hreach (ih _ (hreach.below (step_below ..)) v t hv rfl)
    by_cases hs : ∃ other finish, builtin.step value type = .handOn other finish
    · obtain ⟨declared, finish, hs⟩ := hs
      obtain ⟨htype, fields, rfl, hform, rfl⟩ := step_builtin_eq_handOn_iff.mp hs
      by_cases hdeclared : Wire.typeId declared = .ok TypeId.any
      -- The declared type is one of all objects again, in another form.
      · exact .loop htype hdeclared hform
      · rw [encode_of_handOn htype hform] at h
        exact .declared htype hform (hpart h fun other finish hs =>
          hdeclared (step_builtin_eq_handOn_iff.mp hs).1)
    · exact hpart h fun other finish h => hs ⟨other, finish, h⟩

/-! ### Calls that go deep enough -/

/-- Where a depth is enough, the result is that of encoding. -/
theorem encode_eq_encodeWithin {depth : Nat} {value : Value} {type : Json}
    (h : encodeWithin builtin depth value type ≠ .error .endless) :
    builtin.encode value type = encodeWithin builtin depth value type := by
  induction depth generalizing value type with
  | zero => exact absurd rfl h
  | succ depth ih =>
    rw [encode_eq, encodeWithin]
    refine Step.run_eq_of_ne_endless (step_below ..) (fun v t _ => ih) ?_ h
    intro other finish hs hne
    have hother := ih hne
    rw [← hother] at hne ⊢
    exact encodeHop_of_not_handOn (not_handOn_of_ne_endless hs hne) _

theorem encode_of_encodeWithin {depth : Nat} {value : Value} {type : Json}
    {result : Except EncodeFailure Json} (h : encodeWithin builtin depth value type = result)
    (hresult : result ≠ .error .endless) : builtin.encode value type = result := by
  rw [← h] at hresult ⊢
  exact encode_eq_encodeWithin hresult

/-- Calls that go twice as deep as the value is large are enough, unless no depth is. -/
theorem encodeWithin_eq_encode {depth : Nat} {value : Value} {type : Json}
    (hdepth : 2 * sizeOf value + 2 ≤ depth)
    (h : builtin.encode value type ≠ .error .endless) :
    encodeWithin builtin depth value type = builtin.encode value type := by
  induction hsize : sizeOf value using Nat.strongRecOn generalizing depth value type with
  | ind size ih =>
    subst hsize
    -- Two levels go to this value, which may be handed on once, and the rest to its parts.
    obtain ⟨depth, rfl⟩ : ∃ d, depth = d + 2 := ⟨depth - 2, by omega⟩
    have hparts : ∀ d, 2 * sizeOf value ≤ d → ∀ v t, sizeOf v < sizeOf value →
        builtin.encode v t ≠ .error .endless →
          encodeWithin builtin d v t = builtin.encode v t :=
      fun d hd v t hlt hv => ih _ hlt (by omega) hv rfl
    rw [encode_eq] at h ⊢
    rw [encodeWithin]
    refine Step.run_eq_of_ne_endless (step_below ..) (hparts (depth + 1) (by omega)) ?_ h
    intro other finish hs hne
    -- The second call for the same value does not hand it on again.
    have hno := not_handOn_of_ne_endless hs hne
    show _ = encodeHop builtin 1 value other
    replace hne : encodeHop builtin 1 value other ≠ .error .endless := hne
    rw [encodeHop_of_not_handOn hno, encode_eq] at hne ⊢
    rw [encodeWithin]
    exact Step.run_eq_of_ne_endless (step_below ..) (hparts depth (by omega))
      (fun other' finish' hs' => absurd hs' (hno other' finish')) hne

theorem encode_endless_iff (value : Value) (type : Json) :
    builtin.encode value type = .error .endless ↔ ForEver value type :=
  ⟨forEver_of_encode_eq_endless value type, ForEver.encode_eq_endless⟩

/-- Encoding ends for every value and every type asked for, with what `encode` yields, unless it
comes to a record whose declared type denotes the type of all objects without being written as it. -/
theorem encode_ends_iff (value : Value) (type : Json) :
    (Ends builtin value type ↔ ¬ ForEver value type) ∧
      (builtin.encode value type = .error .endless ↔ ForEver value type) ∧
      (builtin.encodeAny value = .error .endless ↔
        ForEver value (Wire.reference TypeId.any)) ∧
      ∀ depth, encodeWithin builtin depth value type ≠ .error .endless →
        encodeWithin builtin depth value type = builtin.encode value type := by
  refine ⟨?_, encode_endless_iff value type, encode_endless_iff value _, ?_⟩
  · rw [← encode_endless_iff]
    constructor
    · rintro ⟨depth, hdepth⟩
      rwa [encode_eq_encodeWithin hdepth]
    · intro h
      refine ⟨2 * sizeOf value + 2, ?_⟩
      rwa [encodeWithin_eq_encode (Nat.le_refl _) h]
  · exact fun depth h => (encode_eq_encodeWithin h).symm

/-- An object whose type is a call of the type of all objects. -/
def loopingWire : Json :=
  .obj [("Z1K1", .obj [("Z1K1", .str TypeId.call), ("Z7K1", .str TypeId.any)]), ("a", .str "x")]

/-- An object on the wire may decode to a value that is encoded for ever. -/
theorem encodeWithin_decoded_loopingWire : ∃ value, builtin.decode loopingWire = .ok value ∧
    ∀ depth, encodeWithin builtin depth value (Wire.reference TypeId.any) = .error .endless := by
  refine ⟨.record (some (.obj [("Z1K1", .str TypeId.call), ("Z7K1", .str TypeId.any)]))
    [("a", .text "x")], ?_, ?_⟩
  · cbv
  · intro depth
    have hloop : ForEver (.record (some (.obj [("Z1K1", .str TypeId.call), ("Z7K1", .str TypeId.any)]))
        [("a", .text "x")]) (Wire.reference TypeId.any) :=
      .loop (by cbv) (by cbv) (by cbv)
    by_contra h
    have := encode_eq_encodeWithin h
    rw [hloop.encode_eq_endless] at this
    exact h this.symm

end Polyglot.Codec
