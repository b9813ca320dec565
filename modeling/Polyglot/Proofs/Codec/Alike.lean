import Polyglot.Proofs.Codec.WireForms

/-!
# Wire values that decode alike

Two wire values decode alike when they decode to equal native values or both decode to none
(`DecodesAlike`).  Then the lists, pairs and maps of such parts do so too (`alike_items`,
`alike_slots`, `alike_entries`).
-/

namespace Polyglot.Codec

open Traversal

variable {E : CodecError → CodecError → Prop}

/-- Whether two outcomes are equal native values or related errors. -/
abbrev SameOutcome (E : CodecError → CodecError → Prop) :
    Except CodecError Value → Except CodecError Value → Prop :=
  Alike E fun v w => v.same w = true

/-- Whether two wire values decode to equal native values, or neither does, with related errors. -/
def DecodesAlike (E : CodecError → CodecError → Prop) (wire other : Json) : Prop :=
  SameOutcome E (builtin.decode wire) (builtin.decode other)

theorem DecodesAlike.refl (hE : ∀ e, E e e) (wire : Json) : DecodesAlike E wire wire :=
  Alike.refl hE Value.same_refl _

theorem DecodesAlike.symm (hE : ∀ d e, E d e → E e d) {wire other : Json}
    (h : DecodesAlike E wire other) : DecodesAlike E other wire :=
  Alike.symm hE (fun _ _ => Value.same_symm) h

theorem DecodesAlike.trans (hE : ∀ c d e, E c d → E d e → E c e) {wire other third : Json}
    (h : DecodesAlike E wire other) (h' : DecodesAlike E other third) : DecodesAlike E wire third := by
  refine Alike.trans hE ?_ h h'
  exact fun _ _ _ => Value.same_trans

/-- Lists of items that decode alike. -/
theorem alike_items {items others : List Json} (h : List.Forall₂ (DecodesAlike E) items others) :
    SameOutcome E (do pure (.list (← items.mapM builtin.decode)))
      (do pure (.list (← others.mapM builtin.decode))) := by
  refine (Alike.mapM h).bind ?_
  intro values values' hvalues
  have hsame : Value.sameItems values values' = true := Value.sameItems_iff.mpr hvalues
  exact .ok (by rwa [Value.same])

/-- Pairs of slots that decode alike, whatever types they declare. -/
theorem alike_slots {x x' y y' : Except CodecError Value} (hx : SameOutcome E x x')
    (hy : SameOutcome E y y') (declared declared' : Option Json) :
    SameOutcome E (do let first ← x; let second ← y; pure (.pair first second declared))
      (do let first ← x'; let second ← y'; pure (.pair first second declared')) := by
  refine hx.bind ?_
  intro first first' hfirst
  refine hy.bind ?_
  intro second second' hsecond
  exact .ok (by rw [Value.same, hfirst, hsecond, Bool.and_self])

theorem alike_insertPair (hE : ∀ e, E e e) {es fs : Value.Entries}
    (h : Value.sameEntries es fs = true) {v w : Value} (hvw : v.same w = true) :
    Alike E (fun es fs => Value.sameEntries es fs = true) (insertPair es v) (insertPair fs w) := by
  have hdisplay : v.display = w.display := Value.display_congr hvw
  cases v <;> cases w <;> simp only [Value.same, Bool.and_eq_true, Bool.false_eq_true] at hvw
  case pair.pair => exact .ok (Value.sameEntries_insert h hvw.1 hvw.2)
  -- Values of one other shape are refused with one message.
  all_goals
    rw [insertPair, insertPair, hdisplay]
    · exact .error (hE _)
    all_goals rintro _ _ _ ⟨⟩

/-- Maps of pairs that decode alike. -/
theorem alike_entries (hE : ∀ e, E e e) {items others : List Json}
    (h : List.Forall₂ (DecodesAlike E) items others) :
    SameOutcome E
      (do
        let entries ← items.foldlM (fun entries item => do
          insertPair entries (← builtin.decode item)) []
        pure (.map entries))
      (do
        let entries ← others.foldlM (fun entries item => do
          insertPair entries (← builtin.decode item)) []
        pure (.map entries)) := by
  have hstep : ∀ (es fs : Value.Entries) (item other : Json), Value.sameEntries es fs = true →
      DecodesAlike E item other →
        Alike E (fun es fs => Value.sameEntries es fs = true)
          (do insertPair es (← builtin.decode item)) (do insertPair fs (← builtin.decode other)) := by
    intro es fs item other hes hitem
    refine hitem.bind ?_
    intro v w hvw
    exact alike_insertPair hE hes hvw
  refine (Alike.foldlM h hstep (Value.sameEntries_refl [])).bind ?_
  intro es fs hes
  exact .ok (by rwa [Value.same])

end Polyglot.Codec
