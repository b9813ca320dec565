import Mathlib.Tactic.SplitIfs
import Polyglot.Json.Reader
import Polyglot.Proofs.Json.WellFormed

/-!
# What is read is well-formed

Every value that is read is well-formed (`wellFormed_of_read?`): the integers that numerals write have
64 bits, every draft that tokens write holds such numbers only, and settling a draft puts the fields
of each object in order.
-/

namespace Polyglot.Json

/-! ### Numerals -/

namespace Numeral

theorem accumulate_le {n : Nat} (h : n ≤ Text.maxNat64) (ds : List Nat) :
    (accumulate n ds).1 ≤ Text.maxNat64 := by
  induction ds generalizing n with
  | nil => exact h
  | cons d ds ih =>
    rw [accumulate]
    split_ifs with hd
    · exact ih hd
    · exact h

theorem fits_of_value? {numeral : Numeral} {n : Number} (h : numeral.value? = some n) : n.Fits := by
  have hle : (accumulate 0 numeral.whole).1 ≤ Text.maxNat64 := accumulate_le (Nat.zero_le _) _
  rw [value?] at h
  dsimp only at h
  split at h
  · split at h
    · obtain rfl := Option.some.inj h
      simp only [Number.Fits, Text.minInt64, Text.maxNat64] at hle ⊢
      omega
    · split at h
      · obtain rfl := Option.some.inj h
        simp only [Number.Fits, Text.minInt64, Text.maxNat64] at hle ⊢
        omega
      · obtain rfl := Option.some.inj h
        trivial
  · obtain ⟨x, -, rfl⟩ := Option.map_eq_some_iff.mp h
    trivial

end Numeral

/-! ### Tokens -/

/-- Whether the number that a token may be has 64 bits if it is an integer. -/
def Token.Fits : Token → Prop
  | .num value => ∀ n, value = some n → n.Fits
  | _ => True

theorem fits_of_tokens? {cs : List Char} {ts : List Token} (h : tokens? cs = some ts) :
    ∀ t ∈ ts, t.Fits := by
  -- All cases that do not fail put one token before those of a shorter text.
  have hcons : ∀ {t : Token} {rest : List Char} {ts : List Token},
      (tokens? rest).map (t :: ·) = some ts → t.Fits →
      (∀ {ts : List Token}, tokens? rest = some ts → ∀ t ∈ ts, t.Fits) → ∀ t ∈ ts, t.Fits := by
    intro t rest ts h ht ih
    obtain ⟨us, hus, rfl⟩ := Option.map_eq_some_iff.mp h
    exact List.forall_mem_cons.mpr ⟨ht, ih hus⟩
  fun_induction tokens? cs generalizing ts with
  | case1 =>
    obtain rfl := Option.some.inj h
    rintro _ ⟨⟩
  | case2 _ ih | case3 _ ih | case4 _ ih | case5 _ ih | case6 _ ih | case7 _ ih | case8 _ ih
  | case9 _ ih | case10 _ ih => exact hcons h trivial ih
  | case11 _ _ _ _ ih => exact hcons h trivial ih
  | case12 => cases h
  | case13 =>
    rename_i ih
    exact ih h
  | case14 =>
    rename_i ih
    exact hcons h (fun _ hn => Numeral.fits_of_value? hn) ih
  | case15 => cases h

/-! ### Drafts -/

/-- Whether the integers in a draft have 64 bits. -/
inductive Draft.Fits : Draft → Prop
  | null : Fits null
  | bool (b : Bool) : Fits (bool b)
  | num {value : Option Number} (h : ∀ n, value = some n → n.Fits) : Fits (num value)
  | str (value : Option String) : Fits (str value)
  | arr {items : List Draft} (h : ∀ x ∈ items, Fits x) : Fits (arr items)
  | obj {fields : List (Option String × Draft)} (h : ∀ f ∈ fields, Fits f.2) : Fits (obj fields)

/-- Whether the integers in an array or object that is not closed yet have 64 bits. -/
def Frame.Fits : Frame → Prop
  | items before => ∀ x ∈ before, x.Fits
  | fields before _ => ∀ f ∈ before, f.2.Fits

/-- Whether the integers in what a place comes after have 64 bits. -/
def Expected.Fits : Expected → Prop
  | nextItem before => ∀ x ∈ before, x.Fits
  | key before | colon before _ | nextField before => ∀ f ∈ before, f.2.Fits
  | finished result => result.Fits
  | _ => True

namespace Progress

/-- Whether the integers that have been read have 64 bits. -/
def Fits (p : Progress) : Prop := (∀ frame ∈ p.around, frame.Fits) ∧ p.expected.Fits

theorem fits_complete {v : Draft} (hv : v.Fits) {around : List Frame}
    (h : ∀ frame ∈ around, frame.Fits) : (complete v around).Fits := by
  cases around with
  | nil => exact ⟨h, hv⟩
  | cons frame around =>
    obtain ⟨hframe, haround⟩ := List.forall_mem_cons.mp h
    cases frame with
    | items before => exact ⟨haround, List.forall_mem_cons.mpr ⟨hv, hframe⟩⟩
    | fields before key => exact ⟨haround, List.forall_mem_cons.mpr ⟨hv, hframe⟩⟩

theorem fits_of_enter? {around : List Frame} (h : ∀ frame ∈ around, frame.Fits) {t : Token}
    (ht : t.Fits) {p : Progress} (hp : enter? around t = some p) : p.Fits := by
  cases t with
  | null => exact Option.some.inj hp ▸ fits_complete .null h
  | bool b => exact Option.some.inj hp ▸ fits_complete (.bool b) h
  | num n => exact Option.some.inj hp ▸ fits_complete (.num ht) h
  | str s => exact Option.some.inj hp ▸ fits_complete (.str s) h
  | openArray => exact Option.some.inj hp ▸ ⟨h, trivial⟩
  | openObject => exact Option.some.inj hp ▸ ⟨h, trivial⟩
  | _ => cases hp

/-- A token with such a number keeps the numbers that have been read so. -/
theorem Fits.step? {p p' : Progress} (hp : p.Fits) {t : Token} (ht : t.Fits)
    (h : p.step? t = some p') : p'.Fits := by
  obtain ⟨around, expected⟩ := p
  obtain ⟨haround, hexpected⟩ := hp
  dsimp only at haround hexpected
  unfold Progress.step? at h
  dsimp only at h
  split at h
  · exact fits_of_enter? haround ht h
  · exact Option.some.inj h ▸ fits_complete (.arr (by simp)) haround
  · have hitems : Frame.Fits (.items []) := by rintro _ ⟨⟩
    exact fits_of_enter? (List.forall_mem_cons.mpr ⟨hitems, haround⟩) ht h
  · exact Option.some.inj h ▸ ⟨List.forall_mem_cons.mpr ⟨hexpected, haround⟩, trivial⟩
  · have hitems : Draft.Fits (.arr _) := .arr fun x hx => hexpected x (List.mem_reverse.mp hx)
    exact Option.some.inj h ▸ fits_complete hitems haround
  · exact Option.some.inj h ▸ fits_complete (.obj (by simp)) haround
  · exact Option.some.inj h ▸ ⟨haround, by rintro _ ⟨⟩⟩
  · exact Option.some.inj h ▸ ⟨haround, hexpected⟩
  · exact Option.some.inj h ▸ ⟨List.forall_mem_cons.mpr ⟨hexpected, haround⟩, trivial⟩
  · exact Option.some.inj h ▸ ⟨haround, hexpected⟩
  · have hfields : Draft.Fits (.obj _) := .obj fun f hf => hexpected f (List.mem_reverse.mp hf)
    exact Option.some.inj h ▸ fits_complete hfields haround
  · cases h

end Progress

theorem fits_of_ofTokens? {ts : List Token} (h : ∀ t ∈ ts, t.Fits) {d : Draft}
    (hd : Draft.ofTokens? ts = some d) : d.Fits := by
  -- The fold begins with nothing read, and each token keeps `Progress.Fits`.
  suffices hfold : ∀ p : Progress, p.Fits → ∀ p', ts.foldlM Progress.step? p = some p' → p'.Fits by
    rw [Draft.ofTokens?] at hd
    split at hd
    · rename_i p hp
      obtain rfl := Option.some.inj hd
      exact (hfold ⟨[], .value⟩ ⟨by rintro _ ⟨⟩, trivial⟩ _ hp).2
    · cases hd
  clear hd
  induction ts with
  | nil => exact fun p hp p' h => Option.some.inj h ▸ hp
  | cons t ts ih =>
    intro p hp p' h'
    obtain ⟨ht, hts⟩ := List.forall_mem_cons.mp h
    rw [List.foldlM_cons] at h'
    obtain ⟨q, hq, h'⟩ := Option.bind_eq_some_iff.mp h'
    exact ih hts q (hp.step? ht hq) p' h'

theorem fits_of_ofText? {s : String} {d : Draft} (h : Draft.ofText? s = some d) : d.Fits := by
  obtain ⟨ts, hts, hd⟩ := Option.bind_eq_some_iff.mp h
  exact fits_of_ofTokens? (fits_of_tokens? hts) hd

/-! ### Values -/

mutual

/-- The value of a draft is well-formed. -/
theorem wellFormed_of_settle? : ∀ {d : Draft}, d.Fits → ∀ {j : Json}, d.settle? = some j →
    j.WellFormed
  | .null, _, _, h => Option.some.inj h ▸ .null
  | .bool b, _, _, h => Option.some.inj h ▸ .bool b
  | .num value, .num hv, j, h => by
    obtain ⟨n, hn, rfl⟩ := Option.map_eq_some_iff.mp h
    exact .num (hv n hn)
  | .str value, _, j, h => by
    obtain ⟨s, -, rfl⟩ := Option.map_eq_some_iff.mp h
    exact .str s
  | .arr items, .arr hd, j, h => by
    rw [Draft.settle?] at h
    obtain ⟨xs, hxs, rfl⟩ := Option.map_eq_some_iff.mp h
    exact .arr (wellFormed_of_settleItems? hd hxs)
  | .obj fields, .obj hd, j, h => by
    rw [Draft.settle?] at h
    obtain ⟨xs, hxs, rfl⟩ := Option.map_eq_some_iff.mp h
    -- The fields may stand in any order, and more than once.
    exact .object (wellFormed_of_settleFields? hd hxs)

theorem wellFormed_of_settleItems? : ∀ {items : List Draft}, (∀ x ∈ items, x.Fits) →
    ∀ {xs : List Json}, Draft.settleItems? items = some xs → ∀ x ∈ xs, x.WellFormed
  | [], _, xs, h => by
    obtain rfl := Option.some.inj h
    rintro _ ⟨⟩
  | d :: items, hd, xs, h => by
    simp only [Draft.settleItems?, Option.bind_eq_bind, Option.bind_eq_some_iff] at h
    obtain ⟨x, hx, ys, hys, h⟩ := h
    obtain rfl := Option.some.inj h
    obtain ⟨hfirst, hrest⟩ := List.forall_mem_cons.mp hd
    exact List.forall_mem_cons.mpr
      ⟨wellFormed_of_settle? hfirst hx, wellFormed_of_settleItems? hrest hys⟩

theorem wellFormed_of_settleFields? : ∀ {fields : List (Option String × Draft)},
    (∀ f ∈ fields, f.2.Fits) → ∀ {xs : List (String × Json)},
      Draft.settleFields? fields = some xs → ∀ x ∈ xs, x.2.WellFormed
  | [], _, xs, h => by
    obtain rfl := Option.some.inj h
    rintro _ ⟨⟩
  | (k, d) :: fields, hd, xs, h => by
    simp only [Draft.settleFields?, Option.bind_eq_bind, Option.bind_eq_some_iff] at h
    obtain ⟨key, -, x, hx, ys, hys, h⟩ := h
    obtain rfl := Option.some.inj h
    obtain ⟨hfirst, hrest⟩ := List.forall_mem_cons.mp hd
    exact List.forall_mem_cons.mpr
      ⟨wellFormed_of_settle? hfirst hx, wellFormed_of_settleFields? hrest hys⟩

end

theorem wellFormed_of_settleWithin? {limit : Nat} {d : Draft} (hd : d.Fits) {j : Json}
    (h : d.settleWithin? limit = some j) : j.WellFormed := by
  rw [Draft.settleWithin?] at h
  split_ifs at h
  exact wellFormed_of_settle? hd h

/-- Every value that is read is well-formed. -/
theorem wellFormed_of_read? {s : String} {j : Json} (h : read? s = some j) : j.WellFormed := by
  obtain ⟨d, hd, hj⟩ := Option.bind_eq_some_iff.mp h
  exact wellFormed_of_settleWithin? (fits_of_ofText? hd) hj

end Polyglot.Json
