import Mathlib.Data.Bool.AllAny
import Polyglot.Script.Token.Scan

/-!
# String literals

The content of a string literal is a sequence of items: characters that stand for themselves, and
escapes, which begin with a backslash (`Item`).  A text is scanned as a string literal exactly when it
begins with items and the quote that closes them, and the characters that the items stand for are what
is scanned (`scanString_eq_ok_iff`).

A code point is written by four hexadecimal digits.  Since these are read as any number is, a plus sign
and three digits are taken as well (`scanString_signedCodePoint`).
-/

namespace Polyglot.Script

/-! ### Items -/

/-- Whether a character is a hexadecimal digit. -/
def IsHexDigit (c : Char) : Prop := (Text.hexValue? c).isSome

instance : DecidablePred IsHexDigit :=
  fun c => inferInstanceAs (Decidable ((Text.hexValue? c).isSome = true))

/-- The number that hexadecimal digits write. -/
def hexNumber (digits : List Char) : Nat :=
  digits.foldl (fun n d => n * 16 + (Text.hexValue? d).getD 0) 0

/-- Whether characters are as many hexadecimal digits as given, and their number is that of a
character. -/
def IsCodePoint (length : Nat) (digits : List Char) : Prop :=
  digits.length = length ∧ (∀ d ∈ digits, IsHexDigit d) ∧ (hexNumber digits).isValidChar

/-- The character that a letter other than `u` stands for behind a backslash. -/
def unescape (c : Char) : Char :=
  if c = 'n' then '\n'
  else if c = 't' then '\t'
  else if c = 'r' then '\r'
  else if c = '0' then '\x00'
  else c

/-- One item of the content of a string literal. -/
inductive Item where
  /-- A character that stands for itself. -/
  | plain (c : Char)
  /-- A backslash and a character. -/
  | escaped (c : Char)
  /-- A backslash, the letter `u` and hexadecimal digits. -/
  | codePoint (digits : List Char)
  /-- A backslash, the letter `u`, a plus sign and hexadecimal digits. -/
  | signedCodePoint (digits : List Char)

namespace Item

/-- How an item is written. -/
def written : Item → List Char
  | plain c => [c]
  | escaped c => ['\\', c]
  | codePoint digits => '\\' :: 'u' :: digits
  | signedCodePoint digits => '\\' :: 'u' :: '+' :: digits

/-- The character that an item stands for. -/
def value : Item → Char
  | plain c => c
  | escaped c => unescape c
  | codePoint digits => Char.ofNat (hexNumber digits)
  | signedCodePoint digits => Char.ofNat (hexNumber digits)

/-- Whether an item may stand between the given quotes. -/
def Fits (quote : Char) : Item → Prop
  | plain c => c ≠ quote ∧ c ≠ '\\' ∧ c ≠ '\n'
  | escaped c => c ≠ 'u'
  | codePoint digits => IsCodePoint 4 digits
  | signedCodePoint digits => IsCodePoint 3 digits

/-- Whether an item is a code point after a plus sign. -/
def IsSigned : Item → Prop
  | signedCodePoint _ => True
  | _ => False

end Item

/-! ### Escapes -/

theorem readHexDigits_eq_some_iff {digits : List Char} {n : Nat} :
    Text.readHexDigits digits = some n ↔
      digits ≠ [] ∧ (∀ d ∈ digits, IsHexDigit d) ∧ hexNumber digits = n :=
  Text.readBase_eq_some_iff

theorem escapedCodePoint?_eq {length : Nat} {digits : List Char} (h : IsCodePoint (length + 1) digits) :
    escapedCodePoint? digits = some (Char.ofNat (hexNumber digits)) ∧
      escapedCodePoint? ('+' :: digits) = some (Char.ofNat (hexNumber digits)) := by
  obtain ⟨hlength, hdigits, hvalid⟩ := h
  have hne : digits ≠ [] := by
    rintro rfl
    cases hlength
  have hread : Text.readHexDigits digits = some (hexNumber digits) :=
    readHexDigits_eq_some_iff.mpr ⟨hne, hdigits, rfl⟩
  have hplus : ∀ ds, digits ≠ '+' :: ds := by
    rintro ds rfl
    exact absurd (hdigits '+' List.mem_cons_self) (by decide)
  constructor
  · unfold escapedCodePoint?
    split
    · exact absurd rfl (hplus _)
    · simp [hread, hvalid]
  · unfold escapedCodePoint?
    simp [hread, hvalid]

/-- A code point is read from as many digits as there are characters, or one less after a plus
sign. -/
theorem isCodePoint_of_escapedCodePoint? {cs : List Char} {c : Char}
    (h : escapedCodePoint? cs = some c) :
    (IsCodePoint cs.length cs ∧ Char.ofNat (hexNumber cs) = c) ∨
      ∃ digits, cs = '+' :: digits ∧ IsCodePoint digits.length digits ∧
        Char.ofNat (hexNumber digits) = c := by
  have hread : ∀ {ds : List Char}, (Text.readHexDigits ds >>= fun n =>
      if n.isValidChar then some (Char.ofNat n) else none) = some c →
        IsCodePoint ds.length ds ∧ Char.ofNat (hexNumber ds) = c := by
    intro ds hds
    obtain ⟨n, hn, hc⟩ := Option.bind_eq_some_iff.mp hds
    obtain ⟨-, hdigits, rfl⟩ := readHexDigits_eq_some_iff.mp hn
    split at hc
    · rename_i hvalid
      exact ⟨⟨rfl, hdigits, hvalid⟩, Option.some.inj hc⟩
    · cases hc
  unfold escapedCodePoint? at h
  split at h
  · rename_i digits
    exact .inr ⟨digits, rfl, hread h⟩
  · exact .inl (hread h)

theorem scanEscape_of_ne {c : Char} (h : c ≠ 'u') (rest : List Char) :
    scanEscape (c :: rest) = .ok (unescape c, rest) := by
  unfold scanEscape unescape
  dsimp only
  repeat' split
  all_goals rfl

theorem scanEscape_codePoint {cs rest : List Char} {c : Char} (hlength : cs.length = 4)
    (hc : escapedCodePoint? cs = some c) : scanEscape ('u' :: (cs ++ rest)) = .ok (c, rest) := by
  have htake : (cs ++ rest).take 4 = cs := List.take_left' hlength
  have hdrop : (cs ++ rest).drop 4 = rest := List.drop_left' hlength
  unfold scanEscape
  simp [htake, hdrop, hc]

/-- The escapes that fit are scanned as what they stand for. -/
theorem scanEscape_written {quote : Char} {item : Item} (h : item.Fits quote) {cs : List Char}
    (hcs : item.written = '\\' :: cs) (rest : List Char) :
    scanEscape (cs ++ rest) = .ok (item.value, rest) := by
  cases item with
  | plain c =>
    obtain ⟨rfl, -⟩ := List.cons.inj hcs
    exact absurd rfl h.2.1
  | escaped c =>
    obtain ⟨-, rfl⟩ := List.cons.inj hcs
    exact scanEscape_of_ne h rest
  | codePoint digits =>
    obtain ⟨-, rfl⟩ := List.cons.inj hcs
    exact scanEscape_codePoint h.1 (escapedCodePoint?_eq h).1
  | signedCodePoint digits =>
    obtain ⟨-, rfl⟩ := List.cons.inj hcs
    have hlength : ('+' :: digits).length = 4 := congrArg (· + 1) h.1
    exact scanEscape_codePoint hlength (escapedCodePoint?_eq h).2

/-- What is scanned as an escape is one that fits, unless it has fewer characters than it needs and is
the end of the text. -/
theorem exists_item_of_scanEscape (quote : Char) {cs rest : List Char} {c : Char}
    (h : scanEscape cs = .ok (c, rest)) (hrest : rest ≠ []) :
    ∃ item : Item, item.Fits quote ∧ '\\' :: cs = item.written ++ rest ∧ item.value = c := by
  cases cs with
  | nil => cases h
  | cons d cs =>
    by_cases hd : d = 'u'
    · subst hd
      cases hc : escapedCodePoint? (cs.take 4) with
      | none => simp [scanEscape, hc] at h
      | some c' =>
        simp only [scanEscape, hc] at h
        obtain ⟨rfl, rfl⟩ : c' = c ∧ cs.drop 4 = rest := by simpa using h
        have hlength : (cs.take 4).length = 4 := by
          have hpos := List.length_pos_iff.mpr hrest
          rw [List.length_drop] at hpos
          rw [List.length_take]
          omega
        have hcs : cs = cs.take 4 ++ cs.drop 4 := (List.take_append_drop 4 cs).symm
        rcases isCodePoint_of_escapedCodePoint? hc with
          ⟨hpoint, hvalue⟩ | ⟨digits, htake, hpoint, hvalue⟩
        · rw [hlength] at hpoint
          exact ⟨.codePoint (cs.take 4), hpoint, by simp [Item.written], hvalue⟩
        · have hthree : digits.length = 3 := by simpa [htake] using hlength
          rw [hthree] at hpoint
          refine ⟨.signedCodePoint digits, hpoint, ?_, hvalue⟩
          rw [htake] at hcs
          simpa [Item.written] using hcs
    · rw [scanEscape_of_ne hd] at h
      obtain ⟨rfl, rfl⟩ : unescape d = c ∧ cs = rest := by simpa using h
      exact ⟨.escaped d, hd, rfl, rfl⟩

/-! ### Whole literals -/

theorem scanString_plain {quote c : Char} (h : (Item.plain c).Fits quote) (rest : List Char) :
    scanString quote (c :: rest) = (scanString quote rest).map fun (cs, r) => (c :: cs, r) := by
  obtain ⟨hquote, hbackslash, hnewline⟩ := h
  rw [scanString, if_neg hquote, if_neg hnewline, if_neg hbackslash]

theorem scanString_backslash {quote : Char} (hquote : quote ≠ '\\') {cs rest : List Char} {c : Char}
    (h : scanEscape cs = .ok (c, rest)) :
    scanString quote ('\\' :: cs) = (scanString quote rest).map fun (s, r) => (c :: s, r) := by
  rw [scanString, if_neg hquote.symm, if_neg (by decide), if_pos rfl]
  split
  · rename_i herror
    rw [h] at herror
    cases herror
  · rename_i hok
    rw [h] at hok
    obtain ⟨rfl, rfl⟩ := Prod.mk.inj (Except.ok.inj hok)
    rfl

/-- The scan of an item goes on with what follows it. -/
theorem scanString_item {quote : Char} (hquote : quote ≠ '\\') {item : Item} (h : item.Fits quote)
    (rest : List Char) : scanString quote (item.written ++ rest) =
      (scanString quote rest).map fun (s, r) => (item.value :: s, r) := by
  cases item with
  | plain c => exact scanString_plain h rest
  | _ => exact scanString_backslash hquote (scanEscape_written h rfl rest)

/-- Items that fit are scanned up to the quote that closes them. -/
theorem scanString_written {quote : Char} (hquote : quote ≠ '\\') {items : List Item}
    (h : ∀ item ∈ items, item.Fits quote) (rest : List Char) :
    scanString quote (items.flatMap Item.written ++ quote :: rest) =
      .ok (items.map Item.value, rest) := by
  induction items with
  | nil =>
    rw [List.flatMap_nil, List.nil_append, scanString, if_pos rfl]
    rfl
  | cons item items ih =>
    obtain ⟨hitem, hitems⟩ := List.forall_mem_cons.mp h
    rw [List.flatMap_cons, List.append_assoc, scanString_item hquote hitem, ih hitems]
    rfl

theorem exists_of_map_cons {x : Except Mistake (List Char × List Char)} {c : Char} {s rest : List Char}
    (h : (x.map fun (cs, r) => (c :: cs, r)) = .ok (s, rest)) :
    ∃ s', x = .ok (s', rest) ∧ c :: s' = s := by
  cases x with
  | error m => cases h
  | ok p =>
    obtain ⟨hs, rfl⟩ := Prod.mk.inj (Except.ok.inj h)
    exact ⟨p.1, rfl, hs⟩

/-- What has been scanned as the content of a literal is items that fit, up to the quote. -/
theorem exists_items_of_scanString {quote : Char} {cs s rest : List Char}
    (h : scanString quote cs = .ok (s, rest)) : ∃ items : List Item,
      (∀ item ∈ items, item.Fits quote) ∧ cs = items.flatMap Item.written ++ quote :: rest ∧
        items.map Item.value = s := by
  fun_induction scanString quote cs generalizing s with
  | case1 => cases h
  | case2 rest' =>
    obtain ⟨rfl, rfl⟩ := Prod.mk.inj (Except.ok.inj h)
    exact ⟨[], by simp, rfl, rfl⟩
  | case3 => cases h
  | case4 => cases h
  | case5 cs' e rest' he _ _ ih =>
    obtain ⟨s', hs', rfl⟩ := exists_of_map_cons h
    have hne : rest' ≠ [] := by
      rintro rfl
      rw [scanString] at hs'
      cases hs'
    obtain ⟨item, hitem, hwritten, rfl⟩ := exists_item_of_scanEscape quote he hne
    obtain ⟨items, hitems, rfl, rfl⟩ := ih hs'
    refine ⟨item :: items, List.forall_mem_cons.mpr ⟨hitem, hitems⟩, ?_, rfl⟩
    rw [hwritten, List.flatMap_cons, List.append_assoc]
  | case6 c cs' hquote hnewline hbackslash ih =>
    obtain ⟨s', hs', rfl⟩ := exists_of_map_cons h
    obtain ⟨items, hitems, rfl, rfl⟩ := ih hs'
    exact ⟨.plain c :: items,
      List.forall_mem_cons.mpr ⟨⟨hquote, hbackslash, hnewline⟩, hitems⟩, rfl, rfl⟩

/-- A text is scanned as a string literal exactly when it begins with items that fit between the quotes
and the closing quote.  Then what is scanned is what the items stand for, and what is left is what
follows the quote. -/
theorem scanString_eq_ok_iff {quote : Char} (hquote : quote ≠ '\\') (cs s rest : List Char) :
    scanString quote cs = .ok (s, rest) ↔ ∃ items : List Item,
      (∀ item ∈ items, item.Fits quote) ∧ cs = items.flatMap Item.written ++ quote :: rest ∧
        items.map Item.value = s := by
  constructor
  · exact exists_items_of_scanString
  · rintro ⟨items, hitems, rfl, rfl⟩
    exact scanString_written hquote hitems rest

/-- A literal with an escaped quote and a code point, and what follows it. -/
theorem scanString_eq_ok_iff_escapes : '\'' ≠ '\\' ∧
    scanString '\'' ("it\\'s \\u00e9' x".toList) = .ok ("it's é".toList, " x".toList) := by
  have hpoint : IsCodePoint 4 ['0', '0', 'e', '9'] :=
    ⟨rfl, List.all_iff_forall_prop.mp (by decide), by decide⟩
  refine ⟨by decide, (scanString_eq_ok_iff (by decide) _ _ _).mpr ?_⟩
  refine ⟨[.plain 'i', .plain 't', .escaped '\'', .plain 's', .plain ' ',
    .codePoint ['0', '0', 'e', '9']], ?_, by decide, by decide⟩
  simp [Item.Fits, hpoint]

/-- A plus sign and three digits are scanned as a code point, although these are not items without a
sign. -/
theorem scanString_signedCodePoint :
    scanString '"' ("\\u+041\"".toList) = .ok (['A'], []) ∧
      ¬∃ (items : List Item) (rest : List Char),
        (∀ item ∈ items, item.Fits '"' ∧ ¬item.IsSigned) ∧
          "\\u+041\"".toList = items.flatMap Item.written ++ '"' :: rest := by
  constructor
  · have hpoint : IsCodePoint 3 ['0', '4', '1'] :=
      ⟨rfl, List.all_iff_forall_prop.mp (by decide), by decide⟩
    have hfits : ∀ item ∈ [Item.signedCodePoint ['0', '4', '1']], item.Fits '"' := by
      simpa [Item.Fits] using hpoint
    exact scanString_written (by decide) hfits []
  · rintro ⟨_ | ⟨item, items⟩, rest, hitems, heq⟩
    · exact absurd (List.cons.inj heq).1 (by decide)
    · obtain ⟨hfits, hsigned⟩ := hitems item List.mem_cons_self
      -- The first item begins with `\u`, so it has the plus sign among its digits.
      cases item with
      | plain c => exact hfits.2.1 (List.cons.inj heq).1.symm
      | escaped c => exact hfits (List.cons.inj (List.cons.inj heq).2).1.symm
      | codePoint digits =>
        obtain ⟨d, digits, rfl⟩ := List.exists_cons_of_length_eq_add_one hfits.1
        have hd : d = '+' := (List.cons.inj (List.cons.inj (List.cons.inj heq).2).2).1.symm
        exact absurd (hfits.2.1 d List.mem_cons_self) (by rw [hd]; decide)
      | signedCodePoint digits => exact hsigned trivial

end Polyglot.Script
