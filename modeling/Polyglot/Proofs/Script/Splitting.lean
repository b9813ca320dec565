import Mathlib.Data.List.Infix
import Polyglot.Script.Datum.Operators

/-!
# Parts of texts

A text that is not empty cuts another at the occurrences that a scan from the left finds, without
overlap (`Finds`).

* `intercalate_splitChars`: the parts with the separator between them are the whole text.
* `not_isInfix_of_mem_splitChars`: no part contains the separator.  A part is a prefix of the text
  from where it begins, so an occurrence in it would have been found.
* `exists_finds`: there is one part more than there are occurrences.

An empty text cuts another into its characters.  The main statement is `splitting_loses_nothing`.
-/

namespace Polyglot.Script

/-! ### Occurrences -/

/-- Whether a text occurs in another at a position. -/
def OccursAt (separator cs : List Char) (i : Nat) : Prop := separator <+: cs.drop i

/-- The occurrences that a scan from the left finds from a position on: the first one that begins
there or later, and then those from the end of this one on. -/
inductive Finds (separator cs : List Char) : (start : Nat) → List Nat → Prop
  /-- There is none. -/
  | none {start : Nat} (hnone : ∀ i, start ≤ i → ¬OccursAt separator cs i) : Finds separator cs start []
  /-- The first one, and those after it. -/
  | next {start i : Nat} {rest : List Nat} (hstart : start ≤ i) (hoccurs : OccursAt separator cs i)
      (hfirst : ∀ j, start ≤ j → j < i → ¬OccursAt separator cs j)
      (hrest : Finds separator cs (i + separator.length) rest) : Finds separator cs start (i :: rest)

namespace Finds

variable {separator cs : List Char} {start : Nat} {found : List Nat}

/-- A scan passes a position without an occurrence. -/
theorem of_succ (hstart : ¬OccursAt separator cs start) (h : Finds separator cs (start + 1) found) :
    Finds separator cs start found := by
  have hat : ∀ j, start ≤ j → start + 1 ≤ j ∨ j = start := fun j hj => by omega
  cases h with
  | none hnone =>
    refine .none fun i hi => ?_
    obtain hi | rfl := hat i hi
    · exact hnone i hi
    · exact hstart
  | next hle hoccurs hfirst hrest =>
    refine .next (by omega) hoccurs (fun j hj hlt => ?_) hrest
    obtain hj | rfl := hat j hj
    · exact hfirst j hj hlt
    · exact hstart

/-- A scan finds the same occurrences each time. -/
theorem unique (h : Finds separator cs start found) :
    ∀ other, Finds separator cs start other → other = found := by
  induction h with
  | none hnone =>
    intro other hother
    cases hother with
    | none _ => rfl
    | next hstart hoccurs _ _ => exact absurd hoccurs (hnone _ hstart)
  | @next start i rest hstart hoccurs hfirst _ ih =>
    intro other hother
    cases hother with
    | none hnone => exact absurd hoccurs (hnone i hstart)
    | @next _ j others hstart' hoccurs' hfirst' hrest' =>
      have hij : j = i := by
        rcases Nat.lt_trichotomy j i with hlt | heq | hlt
        · exact absurd hoccurs' (hfirst j hstart' hlt)
        · exact heq
        · exact absurd hoccurs (hfirst' i hstart hlt)
      subst hij
      rw [ih others hrest']

end Finds

namespace Datum

/-! ### Cutting -/

theorem splitChars_ne_nil (separator cs : List Char) : splitChars separator cs ≠ [] := by
  cases cs with
  | nil => simp [splitChars]
  | cons c rest =>
    unfold splitChars
    split
    · simp
    · split <;> simp

variable {separator : List Char}

theorem drop_pred_length (hseparator : separator ≠ []) (c : Char) (rest : List Char) :
    rest.drop (separator.length - 1) = (c :: rest).drop separator.length := by
  have hpos : 0 < separator.length := List.length_pos_iff.mpr hseparator
  rw [← Nat.sub_add_cancel hpos, List.drop_succ_cons, Nat.add_sub_cancel]

/-- The parts with the separator between them are the whole text. -/
theorem intercalate_splitChars (hseparator : separator ≠ []) (cs : List Char) :
    separator.intercalate (splitChars separator cs) = cs := by
  fun_induction splitChars separator cs with
  | case1 => exact List.intercalate_singleton
  | case2 c rest hprefix ih =>
    have happend := List.prefix_iff_eq_append.mp (List.isPrefixOf_iff_prefix.mp hprefix)
    rw [List.intercalate_cons_of_ne_nil (splitChars_ne_nil _ _), ih, drop_pred_length hseparator c,
      List.nil_append, happend]
  | case3 c rest _ hnil _ => exact absurd hnil (splitChars_ne_nil separator rest)
  | case4 c rest _ part parts hparts ih =>
    rw [hparts] at ih
    cases parts with
    | nil => simpa [List.intercalate_singleton] using ih
    | cons next parts => simpa [List.intercalate_cons_cons] using ih

/-- The first part is what the text begins with. -/
theorem prefix_of_splitChars (hseparator : separator ≠ []) {cs part : List Char}
    {parts : List (List Char)} (h : splitChars separator cs = part :: parts) : part <+: cs := by
  have hwhole := intercalate_splitChars hseparator cs
  rw [h] at hwhole
  cases parts with
  | nil =>
    rw [List.intercalate_singleton] at hwhole
    exact hwhole ▸ List.prefix_refl part
  | cons next parts =>
    rw [List.intercalate_cons_cons, List.append_assoc] at hwhole
    exact hwhole ▸ List.prefix_append part _

/-- No part contains the separator. -/
theorem not_isInfix_of_mem_splitChars (hseparator : separator ≠ []) {cs part : List Char}
    (h : part ∈ splitChars separator cs) : ¬separator <:+: part := by
  have hnil : ¬separator <:+: [] := fun hinfix => hseparator (List.infix_nil.mp hinfix)
  fun_induction splitChars separator cs generalizing part with
  | case1 =>
    rw [List.mem_singleton.mp h]
    exact hnil
  | case2 c rest _ ih =>
    obtain rfl | hlater := List.mem_cons.mp h
    · exact hnil
    · exact ih hlater
  | case3 c rest _ hempty _ => exact absurd hempty (splitChars_ne_nil separator rest)
  | case4 c rest hprefix first parts hparts ih =>
    rw [hparts] at ih
    obtain rfl | hlater := List.mem_cons.mp h
    · intro hinfix
      obtain hhere | hinside := List.infix_cons_iff.mp hinfix
      · -- The separator would begin where the text does.
        have hfirst : c :: first <+: c :: rest :=
          List.cons_prefix_cons.mpr ⟨rfl, prefix_of_splitChars hseparator hparts⟩
        exact hprefix (List.isPrefixOf_iff_prefix.mpr (hhere.trans hfirst))
      · exact ih List.mem_cons_self hinside
    · exact ih (List.mem_cons_of_mem _ hlater)

/-- There is one part more than there are occurrences. -/
theorem exists_finds (hseparator : separator ≠ []) (whole : List Char) (start : Nat) :
    ∃ found, Finds separator whole start found ∧
      (splitChars separator (whole.drop start)).length = found.length + 1 := by
  generalize hcs : whole.drop start = cs
  fun_induction splitChars separator cs generalizing start with
  | case1 =>
    refine ⟨[], .none fun i hi hoccurs => ?_, rfl⟩
    have hend : whole.drop i = [] :=
      List.drop_eq_nil_iff.mpr ((List.drop_eq_nil_iff.mp hcs).trans hi)
    rw [OccursAt, hend] at hoccurs
    exact hseparator (List.prefix_nil.mp hoccurs)
  | case2 c rest hprefix ih =>
    have hoccurs : OccursAt separator whole start := by
      rw [OccursAt, hcs]
      exact List.isPrefixOf_iff_prefix.mp hprefix
    have hafter : whole.drop (start + separator.length) = rest.drop (separator.length - 1) := by
      rw [drop_pred_length hseparator c, ← hcs, List.drop_drop]
    obtain ⟨found, hfound, hlength⟩ := ih (start + separator.length) hafter
    refine ⟨start :: found, .next (Nat.le_refl start) hoccurs (by omega) hfound, ?_⟩
    rw [List.length_cons, List.length_cons, hlength]
  | case3 c rest _ hempty _ => exact absurd hempty (splitChars_ne_nil separator rest)
  | case4 c rest hprefix first parts hparts ih =>
    have hnot : ¬OccursAt separator whole start := by
      rw [OccursAt, hcs]
      exact fun hoccurs => hprefix (List.isPrefixOf_iff_prefix.mpr hoccurs)
    have hafter : whole.drop (start + 1) = rest := by
      rw [← List.drop_drop, hcs, List.drop_succ_cons, List.drop_zero]
    obtain ⟨found, hfound, hlength⟩ := ih (start + 1) hafter
    refine ⟨found, hfound.of_succ hnot, ?_⟩
    rwa [hparts] at hlength

/-! ### Texts -/

theorem itemTexts_map_text (parts : List String) : itemTexts (parts.map text) = parts := by
  induction parts with
  | nil => rfl
  | cons part parts ih => rw [List.map_cons, itemTexts, ih, toText]

theorem apply_join (parts : List String) (separator : String) :
    apply .join [list (parts.map text), text separator] =
      .ok (text (String.intercalate separator parts)) := by
  rw [apply, itemTexts_map_text]

theorem intercalate_nil_singletons (cs : List Char) :
    ([] : List Char).intercalate (cs.map fun c => [c]) = cs := by
  induction cs with
  | nil => rfl
  | cons c cs ih =>
    cases cs with
    | nil => rfl
    | cons d ds =>
      rw [List.map_cons, List.map_cons, List.intercalate_cons_cons]
      exact congrArg (c :: ·) ih

/-- The characters of a text make it up. -/
theorem intercalate_singletons (s : String) :
    String.intercalate "" (s.toList.map String.singleton) = s := by
  have hchars : (s.toList.map String.singleton).map String.toList = s.toList.map fun c => [c] := by
    simp
  rw [← String.toList_inj, String.toList_intercalate, hchars]
  exact intercalate_nil_singletons s.toList

/-- The parts of a text with the separator between them are the text. -/
theorem intercalate_parts {separator : String} (hseparator : separator.toList ≠ []) (s : String) :
    String.intercalate separator ((splitChars separator.toList s.toList).map String.ofList) = s := by
  have hchars : ((splitChars separator.toList s.toList).map String.ofList).map String.toList =
      splitChars separator.toList s.toList := by simp
  rw [← String.toList_inj, String.toList_intercalate, hchars, intercalate_splitChars hseparator]

/-- Splitting loses nothing.  The parts of a text with the separator between them are the text.  If
the separator is not empty, then no part contains it, and there is one part more than there are
occurrences that a scan of the text from the left finds without overlap. -/
theorem splitting_loses_nothing (s separator : String) :
    ∃ parts : List String,
      apply .split [text s, text separator] = .ok (list (parts.map text)) ∧
      apply .join [list (parts.map text), text separator] = .ok (text s) ∧
      (separator ≠ "" →
        (∀ part ∈ parts, ¬separator.toList <:+: part.toList) ∧
        ∃ found, Finds separator.toList s.toList 0 found ∧
          (∀ other, Finds separator.toList s.toList 0 other → other = found) ∧
          parts.length = found.length + 1) := by
  by_cases hempty : separator = ""
  · subst hempty
    refine ⟨s.toList.map String.singleton, ?_, ?_, fun h => absurd rfl h⟩
    · rw [apply, splitText, if_pos rfl, List.map_map]
      rfl
    · rw [apply_join, intercalate_singletons]
  · have hseparator : separator.toList ≠ [] := fun h => hempty (String.toList_eq_nil_iff.mp h)
    refine ⟨(splitChars separator.toList s.toList).map String.ofList, ?_, ?_, fun _ => ⟨?_, ?_⟩⟩
    · rw [apply, splitText, if_neg hempty, List.map_map]
      rfl
    · rw [apply_join, intercalate_parts hseparator]
    · intro part hpart
      obtain ⟨chars, hchars, rfl⟩ := List.mem_map.mp hpart
      rw [String.toList_ofList]
      exact not_isInfix_of_mem_splitChars hseparator hchars
    · obtain ⟨found, hfound, hlength⟩ := exists_finds hseparator s.toList 0
      refine ⟨found, hfound, hfound.unique, ?_⟩
      rwa [List.length_map]

end Datum

end Polyglot.Script
