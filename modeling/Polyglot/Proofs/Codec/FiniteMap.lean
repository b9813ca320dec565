import Polyglot.Proofs.Codec.WireForms
import Polyglot.Proofs.Value.FiniteMap

/-!
# Decoded maps are finite maps

Equality of native values is an equivalence, and maps are finite maps up to it; decoding a map inserts
its pairs one after another (`maps_finite`).  The exact condition for a map to be decoded is
`decode_map_iff`: it has a list, or none, of items that are decoded to pairs.
-/

namespace Polyglot.Codec

/-- The items of a map on the wire: those of its list, or none if it has no list. -/
def mapItems (wire : Json) : Except CodecError (List Json) :=
  match wire.field? "K1" with
  | none => .ok []
  | some list => Wire.listElements list

theorem insertPair_eq_ok_iff {entries result : Value.Entries} {value : Value} :
    insertPair entries value = .ok result ↔
      ∃ k x type, value = .pair k x type ∧ result = entries.insert k x := by
  constructor
  · intro h
    cases value with
    | pair k x type => exact ⟨k, x, type, rfl, (Except.ok.inj h).symm⟩
    | _ => cases h
  · rintro ⟨k, x, type, rfl, rfl⟩
    rfl

/-- Items become a map when each is decoded to a pair, and the pairs are inserted in order. -/
theorem foldlM_insertPair_eq_ok_iff {dec : Json → Except CodecError Value} {items : List Json}
    {acc result : Value.Entries} :
    items.foldlM (fun entries item => do insertPair entries (← dec item)) acc = .ok result ↔
      ∃ pairs : List (Value × Value),
        List.Forall₂ (fun item e => ∃ type, dec item = .ok (.pair e.1 e.2 type)) items pairs ∧
        result = pairs.foldl (fun entries e => entries.insert e.1 e.2) acc := by
  induction items generalizing acc with
  | nil =>
    constructor
    · intro h
      exact ⟨[], .nil, (Except.ok.inj h).symm⟩
    · rintro ⟨pairs, hpairs, rfl⟩
      cases hpairs
      rfl
  | cons item rest ih =>
    rw [List.foldlM_cons, Traversal.bind_eq_ok_iff]
    constructor
    · rintro ⟨next, hnext, hrest⟩
      obtain ⟨value, hvalue, hinsert⟩ := Traversal.bind_eq_ok_iff.mp hnext
      obtain ⟨k, x, type, rfl, rfl⟩ := insertPair_eq_ok_iff.mp hinsert
      obtain ⟨pairs, hpairs, rfl⟩ := ih.mp hrest
      exact ⟨(k, x) :: pairs, .cons ⟨type, hvalue⟩ hpairs, rfl⟩
    · rintro ⟨_, h, rfl⟩
      obtain ⟨e, pairs, ⟨type, hitem⟩, hpairs, rfl⟩ := List.forall₂_cons_left_iff.mp h
      refine ⟨acc.insert e.1 e.2, ?_, ih.mpr ⟨pairs, hpairs, rfl⟩⟩
      rw [hitem]
      rfl

/-- A map is decoded exactly when its items are decoded to pairs, and then these are inserted one
after another. -/
theorem decode_map_iff {codec : Codec} (hrule : codec.decoders.find? TypeId.map = some .map)
    {wire : Json} (htype : Wire.typeOf wire = .ok TypeId.map) {value : Value} :
    codec.decode wire = .ok value ↔
      ∃ (items : List Json) (pairs : List (Value × Value)), mapItems wire = .ok items ∧
        List.Forall₂ (fun item e => ∃ type, codec.decode item = .ok (.pair e.1 e.2 type))
          items pairs ∧
        value = .map (Value.Entries.ofList pairs) := by
  cases wire with
  | obj fields =>
    rw [decode_obj htype, hrule, objectValue, mapItems]
    change _ ↔ ∃ items pairs, (match Json.Fields.find? fields "K1" with
      | none => Except.ok []
      | some list => Wire.listElements list) = .ok items ∧ _
    cases hlist : Json.Fields.find? fields "K1" with
    | none =>
      constructor
      · intro h
        exact ⟨[], [], rfl, .nil, (Except.ok.inj h).symm⟩
      · rintro ⟨items, pairs, hitems, hpairs, rfl⟩
        obtain rfl := Except.ok.inj hitems
        cases hpairs
        rfl
    | some list =>
      simp only [Traversal.bind_eq_ok_iff, foldlM_insertPair_eq_ok_iff]
      constructor
      · rintro ⟨items, hitems, _, ⟨pairs, hpairs, rfl⟩, hvalue⟩
        exact ⟨items, pairs, hitems, hpairs, (Except.ok.inj hvalue).symm⟩
      · rintro ⟨items, pairs, hitems, hpairs, rfl⟩
        exact ⟨items, hitems, _, ⟨pairs, hpairs, rfl⟩, rfl⟩
  | _ => cases htype

/-- A map with two entries under one key. -/
def repeatedKey : Json :=
  mapWire (Wire.mapOf (Wire.reference TypeId.string) (Wire.reference TypeId.string))
    (Wire.pairOf (Wire.reference TypeId.string) (Wire.reference TypeId.string))
    [(Wire.text "a", Wire.text "1"), (Wire.text "b", Wire.text "2"), (Wire.text "a", Wire.text "3")]

end Polyglot.Codec
