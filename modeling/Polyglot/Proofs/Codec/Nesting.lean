import Polyglot.Codec.Encoding
import Polyglot.Envelope
import Polyglot.Proofs.Codec.Step
import Polyglot.Proofs.Json.Depth

/-!
# How deep lists are nested on the wire

A list is written as a chain of cells, each in the tail of the one before it.  So it is nested deeper
than it is long, whatever its items and its type are (`holdsList_of_encode`).
-/

namespace Polyglot.Codec

/-- What lists are written as: an object that is no reference and is nested deeper than the list is
long. -/
def HoldsList (length : Nat) (wire : Json) : Prop :=
  length < wire.depth ∧ Envelope.isVoid wire = false

theorem isVoid_eq_false_of_field? {fields : Json.Fields Json} (h : fields.find? "Z9K1" = none) :
    Envelope.isVoid (.obj fields) = false := by
  have hid : Wire.idOfTag? (.obj fields) = none := by
    rw [Wire.idOfTag?, h]
    split_ifs <;> rfl
  show decide (Wire.idOfTag? (.obj fields) = some TypeId.void ∨
    Wire.idOfTag? (.obj fields) = some TypeId.nothing) = false
  rw [hid]
  rfl

theorem holdsList_listWith (type : Json) (elements : List Json) :
    HoldsList elements.length (Wire.listWith type elements) := by
  induction elements with
  | nil => exact ⟨Nat.succ_pos _, isVoid_eq_false_of_field? rfl⟩
  | cons head rest ih =>
    have htail : ("K2", Wire.listWith type rest) ∈
        [("K1", head), ("K2", Wire.listWith type rest), ("Z1K1", type)] := by simp
    exact ⟨Nat.lt_of_le_of_lt ih.1 (Json.depth_lt_depth_of_mem htail), isVoid_eq_false_of_field? rfl⟩

theorem holdsList_oldListWire (elements : List Json) :
    HoldsList elements.length (oldListWire elements) := by
  induction elements with
  | nil => exact ⟨Nat.succ_pos _, isVoid_eq_false_of_field? rfl⟩
  | cons head rest ih =>
    have htail : ("Z10K2", oldListWire rest) ∈ [("Z10K1", head), ("Z10K2", oldListWire rest),
        ("Z1K1", Wire.reference TypeId.oldList)] := by simp
    exact ⟨Nat.lt_of_le_of_lt ih.1 (Json.depth_lt_depth_of_mem htail), isVoid_eq_false_of_field? rfl⟩

/-- The step for a list writes it as a chain of cells, or fails. -/
theorem step_list (items : List Value) (type : Json) :
    (∃ failure, builtin.step (.list items) type = .done (.error failure)) ∨
      ∃ itemType finish, builtin.step (.list items) type = .items items itemType finish ∧
        ∀ wires, HoldsList wires.length (finish wires) := by
  rw [step]
  split
  · exact .inl ⟨_, rfl⟩
  · split
    · rename_i rule hrule
      -- Three of the rules take a list, and each of them writes cells; the others do not fit it.
      have hmem := builtin_encoder_mem hrule
      cases rule with
      | inferred => exact .inr ⟨_, _, rfl, fun wires => holdsList_listWith _ wires⟩
      | oldList => exact .inr ⟨_, _, rfl, holdsList_oldListWire⟩
      | list =>
        rw [ruleStep]
        split
        · exact .inr ⟨_, _, rfl, holdsList_listWith type⟩
        · exact .inr ⟨_, _, rfl, fun wires => holdsList_listWith _ wires⟩
      | always wire => simp at hmem
      | within key => simp at hmem
      | _ => exact .inl ⟨_, rfl⟩
    · exact .inl ⟨_, rfl⟩

/-- A list is nested deeper on the wire than it is long. -/
theorem holdsList_of_encode {items : List Value} {type wire : Json}
    (h : builtin.encode (.list items) type = .ok wire) : HoldsList items.length wire := by
  rw [encode, encodeHop_eq] at h
  rcases step_list items type with ⟨failure, hstep⟩ | ⟨itemType, finish, hstep, hfinish⟩
  · rw [hstep] at h
    cases h
  · rw [hstep] at h
    obtain ⟨wires, hwires, h⟩ := Traversal.bind_eq_ok_iff.mp h
    obtain rfl := Except.ok.inj h
    have hlength := (Traversal.mapM_eq_ok_iff.mp hwires).length_eq
    exact hlength ▸ hfinish wires

end Polyglot.Codec
