import Polyglot.Json.Reader
import Polyglot.Proofs.Json.WellFormed

/-!
# Nesting

A part of an object is nested less deep than the object (`depth_lt_depth_of_mem`), and a value is
nested no deeper than the text that it is read from (`depth_le_of_read?`).
-/

namespace Polyglot.Json

/-! ### Parts -/

theorem depthFields_le_iff {limit : Nat} {fields : List (String × Json)} :
    depthFields fields ≤ limit ↔ ∀ f ∈ fields, f.2.depth ≤ limit := by
  induction fields with
  | nil => simp [depthFields]
  | cons f fields ih => rw [depthFields, Nat.max_le, ih, List.forall_mem_cons]

theorem depth_lt_depth_of_mem {fields : Fields Json} {f : String × Json} (h : f ∈ fields) :
    f.2.depth < (Json.obj fields).depth := by
  rw [depth, Nat.lt_succ_iff]
  exact depthFields_le_iff.mp (Nat.le_refl _) f h

theorem depth_lt_of_field? {j v : Json} {key : String} (h : j.field? key = some v) :
    v.depth < j.depth := by
  cases j with
  | obj fields => exact depth_lt_depth_of_mem (Fields.mem_of_find? h)
  | _ => cases h

/-! ### Values that are read -/

mutual

/-- The value of a draft is nested no deeper than the draft. -/
theorem depth_le_of_settle? : ∀ {d : Draft} {j : Json}, d.settle? = some j → j.depth ≤ d.depth
  | .null, j, h | .bool _, j, h => by
    obtain rfl := Option.some.inj h
    exact Nat.zero_le _
  | .num value, j, h => by
    obtain ⟨n, -, rfl⟩ := Option.map_eq_some_iff.mp h
    exact Nat.zero_le _
  | .str value, j, h => by
    obtain ⟨s, -, rfl⟩ := Option.map_eq_some_iff.mp h
    exact Nat.zero_le _
  | .arr items, j, h => by
    rw [Draft.settle?] at h
    obtain ⟨xs, hxs, rfl⟩ := Option.map_eq_some_iff.mp h
    exact Nat.succ_le_succ (depthItems_le_of_settleItems? hxs)
  | .obj fields, j, h => by
    rw [Draft.settle?] at h
    obtain ⟨xs, hxs, rfl⟩ := Option.map_eq_some_iff.mp h
    -- Of the fields with one key just the last is kept.
    have hle := depthFields_le_iff.mp (depthFields_le_of_settleFields? hxs)
    exact Nat.succ_le_succ (depthFields_le_iff.mpr fun f hf => hle f (Fields.mem_ofList hf))

theorem depthItems_le_of_settleItems? : ∀ {items : List Draft} {xs : List Json},
    Draft.settleItems? items = some xs → depthItems xs ≤ Draft.depthItems items
  | [], xs, h => by
    obtain rfl := Option.some.inj h
    exact Nat.zero_le _
  | d :: items, xs, h => by
    simp only [Draft.settleItems?, Option.bind_eq_bind, Option.bind_eq_some_iff] at h
    obtain ⟨x, hx, ys, hys, h⟩ := h
    obtain rfl := Option.some.inj h
    have hfirst := depth_le_of_settle? hx
    have hrest := depthItems_le_of_settleItems? hys
    rw [depthItems, Draft.depthItems]
    omega

theorem depthFields_le_of_settleFields? : ∀ {fields : List (Option String × Draft)}
    {xs : List (String × Json)}, Draft.settleFields? fields = some xs →
      depthFields xs ≤ Draft.depthFields fields
  | [], xs, h => by
    obtain rfl := Option.some.inj h
    exact Nat.zero_le _
  | (k, d) :: fields, xs, h => by
    simp only [Draft.settleFields?, Option.bind_eq_bind, Option.bind_eq_some_iff] at h
    obtain ⟨key, -, x, hx, ys, hys, h⟩ := h
    obtain rfl := Option.some.inj h
    have hfirst := depth_le_of_settle? hx
    have hrest := depthFields_le_of_settleFields? hys
    rw [depthFields, Draft.depthFields]
    omega

end

/-- A value that is read is not nested too deep. -/
theorem depth_le_of_read? {s : String} {j : Json} (h : read? s = some j) : j.depth ≤ maxDepth := by
  obtain ⟨d, -, hd⟩ := Option.bind_eq_some_iff.mp h
  rw [Draft.settleWithin?] at hd
  split_ifs at hd with hdepth
  exact Nat.le_trans (depth_le_of_settle? hd) hdepth

end Polyglot.Json
