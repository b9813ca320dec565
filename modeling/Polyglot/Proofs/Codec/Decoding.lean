import Polyglot.Codec.Decoding
import Polyglot.Proofs.Codec.Traversal
import Polyglot.Proofs.Json.WellFormed

/-!
# What decoding makes of an object

`objectValue` is what the rule for the type of an object yields, with what decodes its parts.
Decoding is this with itself for the parts (`decode_obj`).
-/

namespace Polyglot.Codec

/-- The value of an object by a rule, or as a record if there is none. -/
def objectValue (dec : Json → Except CodecError Value) (fields : Json.Fields Json) :
    Option DecodeRule → Except CodecError Value
  | none => do
    let values ← (fields.erase "Z1K1").mapM fun f => do pure (f.1, ← dec f.2)
    pure (.record (fields.find? "Z1K1") values)
  | some .text => decodeText (.obj fields)
  | some .reference => (requiredText (.obj fields) "Z9K1").map valueOfId
  | some .list => do
    let values ← (← Wire.listElements (.obj fields)).mapM dec
    pure (.list values)
  | some .unit => .ok .unit
  | some .boolean => decodeBoolean (.obj fields)
  | some .codePoint => do decodeText (← requiredField (.obj fields) "Z86K1")
  | some .pair => do
    let first ← dec (← requiredField (.obj fields) "K1")
    let second ← dec (← requiredField (.obj fields) "K2")
    pure (.pair first second (fields.find? "Z1K1"))
  | some .map =>
    match fields.find? "K1" with
    | none => .ok (.map [])
    | some pairs => do
      let items ← Wire.listElements pairs
      let entries ← items.foldlM (fun entries item => do insertPair entries (← dec item)) []
      pure (.map entries)
  | some (.always v) => .ok v
  | some (.refuse detail) => .error (.decode detail)
  | some (.within key) =>
    match fields.find? key with
    | none => .error (.decode ("no " ++ key))
    | some v => dec v

theorem decode_obj {codec : Codec} {fields : Json.Fields Json} {id : String}
    (h : Wire.typeOf (.obj fields) = .ok id) : codec.decode (.obj fields) =
      objectValue codec.decode fields (codec.decoders.find? id) := by
  -- One case for each rule: both sides branch on the same fields, in the same order.
  rw [decode]
  simp only [h]
  split
  · rename_i hr
    rw [hr, List.mapM_subtype (g := fun (f : String × Json) => do pure (f.1, ← codec.decode f.2))
      fun _ _ => rfl, List.unattach_attach]
    rfl
  · rename_i hr
    rw [hr]
    rfl
  · rename_i hr
    rw [hr]
    rfl
  · rename_i hr
    rw [hr]
    split
    · rename_i hl
      rw [objectValue, hl]
      rfl
    · rename_i hl
      rw [objectValue, hl, List.mapM_subtype (g := codec.decode) fun _ _ => rfl,
        List.unattach_attach]
      rfl
  · rename_i hr
    rw [hr]
    rfl
  · rename_i hr
    rw [hr]
    rfl
  · rename_i hr
    rw [hr]
    rfl
  · rename_i hr
    rw [hr, objectValue]
    split
    · rename_i hk
      rw [hk]
      rfl
    · rename_i hk
      rw [hk]
      refine bind_congr fun first => ?_
      split
      · rename_i hk
        rw [hk]
        rfl
      · rename_i hk
        rw [hk]
        rfl
  · rename_i hr
    rw [hr, objectValue]
    split
    · rename_i hk
      rw [hk]
    · rename_i hk
      rw [hk]
      simp only
      split
      · rename_i hl
        rw [hl]
        rfl
      · rename_i hl
        rw [hl, List.foldlM_subtype (g := fun entries item => do
          insertPair entries (← codec.decode item)) fun _ _ _ => rfl, List.unattach_attach]
        rfl
  · rename_i hr
    rw [hr]
    rfl
  · rename_i hr
    rw [hr]
    rfl
  · rename_i hr
    rw [hr, objectValue]
    split
    · rename_i hk
      rw [hk]
    · rename_i hk
      rw [hk]

end Polyglot.Codec
