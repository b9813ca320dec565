import Polyglot.Proofs.Codec.Traversal
import Polyglot.Proofs.Json.Settling
import Polyglot.Request

/-!
# The JSON values in a request

`Request.Holds` is about the JSON values in a request: its arguments and the type to return.  In a
request that is read all of them are well-formed (`holds_of_read?`).
-/

namespace Polyglot.Request

/-- Whether the arguments and the type to return have a property. -/
def Holds (P : Json → Prop) (request : Request) : Prop :=
  (∀ f ∈ request.arguments, P f.2) ∧ ∀ type, request.returnType = some type → P type

theorem fits_of_record? {names : List String} {draft : Json.Draft} (hd : draft.Fits)
    {record : List (String × Json.Draft)} (h : draft.record? names = some record) :
    ∀ f ∈ record, f.2.Fits := by
  cases hd with
  | @arr items hitems =>
    rw [Json.Draft.record?] at h
    split_ifs at h
    obtain rfl := Option.some.inj h
    exact fun f hf => hitems f.2 (List.of_mem_zip hf).2
  | @obj fields hfields =>
    rw [Json.Draft.record?] at h
    obtain ⟨known, hknown, h⟩ := Option.bind_eq_some_iff.mp h
    dsimp only at h
    split_ifs at h
    obtain rfl := Option.some.inj h
    have hall : ∀ f ∈ known, f.2.Fits := by
      refine Traversal.forall_mem_of_mapM_eq_some hknown fun field hfield f hf => ?_
      obtain ⟨key, -, rfl⟩ := Option.map_eq_some_iff.mp hf
      exact hfields field hfield
    exact fun f hf => hall f (List.mem_filter.mp hf).1
  | _ => cases h

/-- The values in a request that is read are well-formed. -/
theorem holds_of_read? {s : String} {request : Request} (h : read? s = some request) :
    request.Holds Json.WellFormed := by
  obtain ⟨draft, hdraft, h⟩ := Option.bind_eq_some_iff.mp h
  obtain ⟨record, hrecord, h⟩ := Option.bind_eq_some_iff.mp h
  obtain ⟨name, -, h⟩ := Option.bind_eq_some_iff.mp h
  obtain ⟨code, -, h⟩ := Option.bind_eq_some_iff.mp h
  obtain ⟨arguments, harguments, h⟩ := Option.bind_eq_some_iff.mp h
  obtain ⟨returnType, htype, h⟩ := Option.bind_eq_some_iff.mp h
  obtain rfl := Option.some.inj h
  have hfield : ∀ {key part}, Json.Fields.find? record key = some part → part.Fits :=
    fun hpart => fits_of_record? (Json.fits_of_ofText? hdraft) hrecord _
      (Json.Fields.mem_of_find? hpart)
  constructor
  · cases hpart : Json.Fields.find? record "functionArguments" with
    | none =>
      rw [hpart] at harguments
      obtain rfl := Option.some.inj harguments
      rintro _ ⟨⟩
    | some part =>
      rw [hpart] at harguments
      obtain ⟨j, hj, hobject⟩ := Option.bind_eq_some_iff.mp harguments
      -- Arguments that are no object are refused.
      have hwf := Json.wellFormed_of_settleWithin? (hfield hpart) hj
      cases hwf with
      | obj hk hfields => exact Option.some.inj hobject ▸ hfields
      | _ => cases hobject
  · rintro type rfl
    cases hpart : Json.Fields.find? record "returnType" with
    | none =>
      rw [hpart] at htype
      cases htype
    | some part =>
      rw [hpart] at htype
      -- Null stands for no type; anything else is settled.
      have hsettle : (Json.Draft.settleWithin? (Json.maxDepth - 1) part).map some =
          some (some type) := by
        cases part with
        | null => cases htype
        | _ => exact htype
      obtain ⟨j, hj, hjt⟩ := Option.map_eq_some_iff.mp hsettle
      exact Option.some.inj hjt ▸ Json.wellFormed_of_settleWithin? (hfield hpart) hj

end Polyglot.Request
