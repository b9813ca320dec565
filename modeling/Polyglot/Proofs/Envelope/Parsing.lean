import Polyglot.Envelope
import Polyglot.Proofs.Json.Reading

/-!
# Answers that are read back

A worker prints its answer as one line of compact text, and the other side accepts it again when it
is an answer, is not nested too deep, and has no number that its text does not give back
(`parse_render_iff`).
-/

namespace Polyglot.Envelope

/-- An output is accepted only as an answer. -/
theorem isAnswer_of_parse {output : String} {answer : Json} (h : parse output = .ok answer) :
    isAnswer answer = true := by
  rw [parse] at h
  split_ifs at h
  split at h
  · split_ifs at h with ha
    obtain rfl := Except.ok.inj h
    exact ha
  · cases h

theorem exists_obj_of_isAnswer {answer : Json} (h : isAnswer answer = true) :
    ∃ fields, answer = .obj fields := by
  cases answer with
  | obj fields => exact ⟨fields, rfl⟩
  | _ => cases h

theorem isObject_of_isAnswer {answer : Json} (h : isAnswer answer = true) :
    answer.isObject = true := by
  obtain ⟨fields, rfl⟩ := exists_obj_of_isAnswer h
  rfl

/-- The text of a value is accepted as the value itself when it is an answer that the reader gives
back. -/
theorem parse_render_iff_read? (value : Json) :
    parse value.render = .ok value ↔
      isAnswer value = true ∧ Json.read? value.render = some value := by
  constructor
  · intro h
    have ha := isAnswer_of_parse h
    refine ⟨ha, ?_⟩
    obtain ⟨fields, rfl⟩ := exists_obj_of_isAnswer ha
    rw [parse, Json.trim_render_obj] at h
    simp only [if_neg (Json.render_obj_ne_empty fields)] at h
    split at h
    · rename_i read hread
      split_ifs at h
      rw [hread, Except.ok.inj h]
    · cases h
  · rintro ⟨ha, hread⟩
    obtain ⟨fields, rfl⟩ := exists_obj_of_isAnswer ha
    rw [parse, Json.trim_render_obj]
    simp only [if_neg (Json.render_obj_ne_empty fields), hread, ha, if_true]

/-- The text of a well-formed value is accepted as the value itself exactly when it is an answer, no
deeper than the reader goes, whose numbers are all read back. -/
theorem parse_render_iff {value : Json} (h : value.WellFormed) :
    parse value.render = .ok value ↔
      isAnswer value = true ∧ value.depth ≤ Json.maxDepth ∧
        ∀ n ∈ value.numbers, n.reread? = some n := by
  rw [parse_render_iff_read?, Json.read?_render_eq_self_iff h]

/-- The text of an object that is nested deeper than the reader goes is taken for nonsense. -/
theorem parse_render_of_maxDepth_lt {fields : Json.Fields Json} (h : (Json.obj fields).WellFormed)
    (hdepth : Json.maxDepth < (Json.obj fields).depth) :
    parse (Json.obj fields).render = .error (nonsense (Json.obj fields).render) := by
  have hread : Json.read? (Json.obj fields).render = none := by
    rw [Json.read?_render h, if_neg (Nat.not_le.mpr hdepth)]
  rw [parse, Json.trim_render_obj]
  simp only [if_neg (Json.render_obj_ne_empty fields), hread]

end Polyglot.Envelope
