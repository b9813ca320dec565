import Polyglot.Json.Printer
import Polyglot.Json.Reader
import Polyglot.Proofs.Json.Numeral
import Polyglot.Proofs.Json.WellFormed
import Polyglot.Text.Blank

/-!
# Reading the values that are printed

`read?_render` says what the reader makes of the compact text of a value: nothing if the value is
nested too deep, and otherwise the same value with each number replaced by the one that its numeral
is read as.  So a value is read back exactly when it is not nested too deep and its numbers are read
back (`read?_render_eq_self_iff`), and values whose numbers are read back have different texts
(`eq_of_render_eq`).

The proof follows the reader's three steps.  The characters of a value are the tokens of `tokens`
(`tokens?_toChars`), these make the draft `written` (`foldlM_tokens`), and that has the value
`reread?` (`settle?_written`).
-/

namespace Polyglot.Json

/-! ### Strings -/

/-- The piece that a character of a string is read as. -/
def pieceOf (c : Char) : Piece :=
  if c.toNat < 0x20 ∧ c ∉ ['\x08', '\x0c', '\n', '\r', '\t'] then .unit c.toNat else .char c

theorem unitValue?_hexPair : ∀ n : Fin 0x20,
    unitValue? '0' '0' (Nat.digitChar (n / 16 % 16)) (Nat.digitChar (n % 16)) = some n.val := by
  decide

theorem scanPieces?_escapeChar (c : Char) (cs : List Char) :
    scanPieces? (escapeChar c ++ cs) = (scanPieces? cs).map fun r => (pieceOf c :: r.1, r.2) := by
  unfold escapeChar
  split_ifs with h1 h2 h3 h4 h5 h6 h7 h8
  · subst h1; cases h : scanPieces? cs <;> simp [scanPieces?, simpleEscape?, pieceOf, h]
  · subst h2; cases h : scanPieces? cs <;> simp [scanPieces?, simpleEscape?, pieceOf, h]
  · subst h3; cases h : scanPieces? cs <;> simp [scanPieces?, simpleEscape?, pieceOf, h]
  · subst h4; cases h : scanPieces? cs <;> simp [scanPieces?, simpleEscape?, pieceOf, h]
  · subst h5; cases h : scanPieces? cs <;> simp [scanPieces?, simpleEscape?, pieceOf, h]
  · subst h6; cases h : scanPieces? cs <;> simp [scanPieces?, simpleEscape?, pieceOf, h]
  · subst h7; cases h : scanPieces? cs <;> simp [scanPieces?, simpleEscape?, pieceOf, h]
  · have hunit := unitValue?_hexPair ⟨c.toNat, h8⟩
    have hpiece : pieceOf c = .unit c.toNat := if_pos ⟨h8, by simp [h3, h4, h5, h6, h7]⟩
    simp only [hexPair, List.cons_append, List.nil_append]
    rw [hpiece, scanPieces?, hunit]
    cases scanPieces? cs <;> rfl
  · have hpiece : pieceOf c = .char c := if_neg fun h => h8 h.1
    have hplain : ¬ (c.toNat < 0x20 ∨ c = '\\') := not_or.mpr ⟨h8, h2⟩
    rw [hpiece, List.singleton_append, scanPieces?.eq_def]
    split
    · contradiction
    all_goals (rename_i heq; rw [List.cons.injEq] at heq)
    · exact absurd heq.1 h1
    · exact absurd heq.1 h2
    · exact absurd heq.1 h2
    · obtain ⟨rfl, rfl⟩ := heq
      rw [if_neg hplain]
      cases scanPieces? cs <;> rfl

theorem scanPieces?_stringChars (cs rest : List Char) :
    scanPieces? (cs.flatMap escapeChar ++ '"' :: rest) = some (cs.map pieceOf, rest) := by
  induction cs with
  | nil => simp [scanPieces?]
  | cons c cs ih =>
    rw [List.flatMap_cons, List.append_assoc, scanPieces?_escapeChar, ih]
    rfl

theorem pieceChars?_pieceOf (c : Char) (ps : List Piece) :
    pieceChars? (pieceOf c :: ps) = (pieceChars? ps).map (c :: ·) := by
  unfold pieceOf
  split_ifs with h
  · -- A control is no half of a surrogate pair, whatever follows it.
    have h1 : ¬ (0xD800 ≤ c.toNat ∧ c.toNat < 0xDC00) := by omega
    have h2 : ¬ (0xDC00 ≤ c.toNat ∧ c.toNat < 0xE000) := by omega
    have h3 : ¬ (0xD800 ≤ c.toNat ∧ c.toNat < 0xE000) := by omega
    rw [pieceChars?.eq_def]
    split
    · contradiction
    · rename_i heq
      exact absurd (List.cons.inj heq).1 (by simp)
    · rename_i heq
      rw [List.cons.injEq, Piece.unit.injEq] at heq
      rw [← heq.1, if_neg h1, if_neg h2, Char.ofNat_toNat, heq.2]
    · rename_i heq
      rw [List.cons.injEq, Piece.unit.injEq] at heq
      rw [← heq.1, if_neg h3, Char.ofNat_toNat, heq.2]
  · rfl

theorem pieceChars?_map_pieceOf (cs : List Char) : pieceChars? (cs.map pieceOf) = some cs := by
  induction cs with
  | nil => rfl
  | cons c cs ih => rw [List.map_cons, pieceChars?_pieceOf, ih]; rfl

/-! ### Tokens -/

mutual

/-- The tokens of the text of a value. -/
def tokens : Json → List Token
  | null => [.null]
  | bool b => [.bool b]
  | num n => [.num n.reread?]
  | str s => [.str (some s)]
  | arr [] => [.openArray, .closeArray]
  | arr (x :: xs) => .openArray :: (tokens x ++ itemTokens xs)
  | obj [] => [.openObject, .closeObject]
  | obj ((k, x) :: xs) =>
    .openObject :: .str (some k) :: .colon :: (tokens x ++ fieldTokens xs)

/-- The tokens of the items after the first, and the bracket that closes them. -/
def itemTokens : List Json → List Token
  | [] => [.closeArray]
  | x :: xs => .comma :: (tokens x ++ itemTokens xs)

/-- The tokens of the fields after the first, and the brace that closes them. -/
def fieldTokens : List (String × Json) → List Token
  | [] => [.closeObject]
  | (k, x) :: xs => .comma :: .str (some k) :: .colon :: (tokens x ++ fieldTokens xs)

end

theorem tokens?_stringChars (s : String) (rest : List Char) :
    tokens? (stringChars s ++ rest) = (tokens? rest).map (.str (some s) :: ·) := by
  have hscan := scanPieces?_stringChars s.toList rest
  have hchars := pieceChars?_map_pieceOf s.toList
  simp only [stringChars, List.cons_append, List.append_assoc, List.nil_append]
  rw [tokens?, hscan]
  simp [hchars]

/-- A text that begins with a minus sign or a digit begins with the token of a numeral. -/
theorem tokens?_numeral {c : Char} {cs rest : List Char} {n : Numeral}
    (hc : c = '-' ∨ c.isDigit = true) (hs : Numeral.scan? (c :: cs) = some (n, rest)) :
    tokens? (c :: cs) = (tokens? rest).map (.num n.value? :: ·) := by
  have hne : ∀ d : Char, d ≠ '-' → d.isDigit = false → c ≠ d := by
    rintro d hd hdig rfl
    rcases hc with rfl | hc
    · exact hd rfl
    · rw [hc] at hdig
      exact absurd hdig (by decide)
  have hspace : isSpace c = false := by
    simp [isSpace, hne ' ' (by decide) (by decide), hne '\t' (by decide) (by decide),
      hne '\n' (by decide) (by decide), hne '\r' (by decide) (by decide)]
  rw [tokens?.eq_def]
  split
  · contradiction
  -- All ways in which a token begins but the last need a character that is ruled out.
  all_goals (rename_i heq; rw [List.cons.injEq] at heq)
  iterate 10 exact absurd heq.1 (hne _ (by decide) (by decide))
  obtain ⟨rfl, rfl⟩ := heq
  rw [hspace]
  simp only [Bool.false_eq_true, if_false]
  split
  · rename_i heq
    rw [hs] at heq
    obtain ⟨rfl, rfl⟩ := Prod.mk.inj (Option.some.inj heq)
    rfl
  · rename_i heq
    rw [hs] at heq
    contradiction

theorem tokens?_number (n : Number) {rest : List Char} (hr : Numeral.Ends rest) :
    tokens? (n.toChars ++ rest) = (tokens? rest).map (.num n.reread? :: ·) := by
  obtain ⟨numeral, hvalue, hscan⟩ := n.exists_scan?_toChars
  obtain ⟨c, cs, hcs, hc⟩ := n.exists_toChars_eq_cons
  have hs := hscan rest hr
  rw [hcs] at hs ⊢
  rw [List.cons_append] at hs ⊢
  rw [tokens?_numeral hc hs, hvalue]

theorem ends_itemChars (xs : List Json) (rest : List Char) :
    Numeral.Ends (itemChars xs ++ rest) := by
  cases xs <;> (rintro _ ⟨⟩; decide)

theorem ends_fieldChars (xs : List (String × Json)) (rest : List Char) :
    Numeral.Ends (fieldChars xs ++ rest) := by
  rcases xs with _ | ⟨⟨k, x⟩, xs⟩ <;> (rintro _ ⟨⟩; decide)

mutual

/-- The characters of a value are its tokens, whatever follows them. -/
theorem tokens?_toChars : ∀ (j : Json) {rest : List Char}, Numeral.Ends rest →
    tokens? (j.toChars ++ rest) = (tokens? rest).map (j.tokens ++ ·)
  | .null, rest, _ => by
    show tokens? ('n' :: 'u' :: 'l' :: 'l' :: rest) = _
    rw [tokens?, tokens]
    rfl
  | .bool true, rest, _ => by
    show tokens? ('t' :: 'r' :: 'u' :: 'e' :: rest) = _
    rw [tokens?, tokens]
    rfl
  | .bool false, rest, _ => by
    show tokens? ('f' :: 'a' :: 'l' :: 's' :: 'e' :: rest) = _
    rw [tokens?, tokens]
    rfl
  | .num n, rest, hr => by
    rw [toChars, tokens]
    exact tokens?_number n hr
  | .str s, rest, _ => by
    rw [toChars, tokens]
    exact tokens?_stringChars s rest
  | .arr [], rest, _ => by
    show tokens? ('[' :: ']' :: rest) = _
    rw [tokens?, tokens?, tokens]
    cases tokens? rest <;> rfl
  | .arr (x :: xs), rest, _ => by
    -- A comma or a bracket follows the first item, so a numeral ends there.
    have hx := tokens?_toChars x (ends_itemChars xs rest)
    have hxs := tokens?_itemChars xs rest
    rw [toChars, List.cons_append, List.append_assoc, tokens?, hx, hxs, tokens]
    cases tokens? rest <;> simp
  | .obj [], rest, _ => by
    show tokens? ('\x7b' :: '\x7d' :: rest) = _
    rw [tokens?, tokens?, tokens]
    cases tokens? rest <;> rfl
  | .obj ((k, x) :: xs), rest, _ => by
    have hx := tokens?_toChars x (ends_fieldChars xs rest)
    have hxs := tokens?_fieldChars xs rest
    rw [toChars, List.cons_append, List.append_assoc, List.cons_append, List.append_assoc, tokens?,
      tokens?_stringChars, tokens?, hx, hxs, tokens]
    cases tokens? rest <;> simp

theorem tokens?_itemChars : ∀ (xs : List Json) (rest : List Char),
    tokens? (itemChars xs ++ rest) = (tokens? rest).map (itemTokens xs ++ ·)
  | [], rest => by
    show tokens? (']' :: rest) = _
    rw [tokens?, itemTokens]
    rfl
  | x :: xs, rest => by
    have hx := tokens?_toChars x (ends_itemChars xs rest)
    have hxs := tokens?_itemChars xs rest
    rw [itemChars, List.cons_append, List.append_assoc, tokens?, hx, hxs, itemTokens]
    cases tokens? rest <;> simp

theorem tokens?_fieldChars : ∀ (xs : List (String × Json)) (rest : List Char),
    tokens? (fieldChars xs ++ rest) = (tokens? rest).map (fieldTokens xs ++ ·)
  | [], rest => by
    show tokens? ('\x7d' :: rest) = _
    rw [tokens?, fieldTokens]
    rfl
  | (k, x) :: xs, rest => by
    have hx := tokens?_toChars x (ends_fieldChars xs rest)
    have hxs := tokens?_fieldChars xs rest
    rw [fieldChars, List.cons_append, List.append_assoc, List.cons_append, List.append_assoc,
      tokens?, tokens?_stringChars, tokens?, hx, hxs, fieldTokens]
    cases tokens? rest <;> simp

end

/-! ### Drafts -/

mutual

/-- The draft that the text of a value is read as. -/
def written : Json → Draft
  | null => .null
  | bool b => .bool b
  | num n => .num n.reread?
  | str s => .str (some s)
  | arr xs => .arr (writtenItems xs)
  | obj xs => .obj (writtenFields xs)

/-- The drafts of the items. -/
def writtenItems : List Json → List Draft
  | [] => []
  | x :: xs => written x :: writtenItems xs

/-- The drafts of the fields. -/
def writtenFields : List (String × Json) → List (Option String × Draft)
  | [] => []
  | (k, x) :: xs => (some k, written x) :: writtenFields xs

end

open Progress (complete step?)

/-- The first token of a value stands for the same where a first item may come as in the array. -/
theorem foldlM_firstItem (j : Json) (ts : List Token) (around : List Frame) :
    (j.tokens ++ ts).foldlM step? ⟨around, .firstItem⟩ =
      (j.tokens ++ ts).foldlM step? ⟨.items [] :: around, .value⟩ := by
  match j with
  | .null | .bool b | .num n | .str s => rw [tokens]; rfl
  | .arr [] | .arr (x :: xs) => rw [tokens]; rfl
  | .obj [] | .obj ((k, x) :: xs) => rw [tokens]; rfl

mutual

/-- The tokens of a value complete its draft, whatever follows them. -/
theorem foldlM_tokens : ∀ (j : Json) (ts : List Token) (around : List Frame),
    (j.tokens ++ ts).foldlM step? ⟨around, .value⟩ = ts.foldlM step? (complete j.written around)
  | .null, ts, around => by rw [tokens, written]; rfl
  | .bool b, ts, around => by rw [tokens, written]; rfl
  | .num n, ts, around => by rw [tokens, written]; rfl
  | .str s, ts, around => by rw [tokens, written]; rfl
  | .arr [], ts, around => by rw [tokens, written, writtenItems]; rfl
  | .arr (x :: xs), ts, around => by
    have hx := foldlM_tokens x (itemTokens xs ++ ts) (.items [] :: around)
    have hxs := foldlM_itemTokens xs ts around [x.written]
    rw [tokens, written, writtenItems, List.cons_append, List.append_assoc]
    -- The bracket is read: what comes next may be the first item or the end of the array.
    show (x.tokens ++ (itemTokens xs ++ ts)).foldlM step? ⟨around, .firstItem⟩ = _
    rw [foldlM_firstItem, hx]
    exact hxs
  | .obj [], ts, around => by rw [tokens, written, writtenFields]; rfl
  | .obj ((k, x) :: xs), ts, around => by
    have hx := foldlM_tokens x (fieldTokens xs ++ ts) (.fields [] (some k) :: around)
    have hxs := foldlM_fieldTokens xs ts around [(some k, x.written)]
    rw [tokens, written, writtenFields, List.cons_append, List.cons_append, List.cons_append,
      List.append_assoc]
    show (x.tokens ++ (fieldTokens xs ++ ts)).foldlM step? ⟨.fields [] (some k) :: around, .value⟩ = _
    rw [hx]
    exact hxs

theorem foldlM_itemTokens : ∀ (xs : List Json) (ts : List Token) (around : List Frame)
    (before : List Draft), (itemTokens xs ++ ts).foldlM step? ⟨around, .nextItem before⟩ =
      ts.foldlM step? (complete (.arr (before.reverse ++ writtenItems xs)) around)
  | [], ts, around, before => by
    rw [itemTokens, writtenItems, List.append_nil]
    rfl
  | x :: xs, ts, around, before => by
    have hx := foldlM_tokens x (itemTokens xs ++ ts) (.items before :: around)
    have hxs := foldlM_itemTokens xs ts around (x.written :: before)
    rw [itemTokens, writtenItems, List.cons_append, List.append_assoc]
    show (x.tokens ++ (itemTokens xs ++ ts)).foldlM step? ⟨.items before :: around, .value⟩ = _
    rw [hx]
    rw [List.reverse_cons, List.append_assoc] at hxs
    exact hxs

theorem foldlM_fieldTokens : ∀ (xs : List (String × Json)) (ts : List Token)
    (around : List Frame) (before : List (Option String × Draft)),
    (fieldTokens xs ++ ts).foldlM step? ⟨around, .nextField before⟩ =
      ts.foldlM step? (complete (.obj (before.reverse ++ writtenFields xs)) around)
  | [], ts, around, before => by
    rw [fieldTokens, writtenFields, List.append_nil]
    rfl
  | (k, x) :: xs, ts, around, before => by
    have hx := foldlM_tokens x (fieldTokens xs ++ ts) (.fields before (some k) :: around)
    have hxs := foldlM_fieldTokens xs ts around ((some k, x.written) :: before)
    rw [fieldTokens, writtenFields, List.cons_append, List.cons_append, List.cons_append,
      List.append_assoc]
    show (x.tokens ++ (fieldTokens xs ++ ts)).foldlM step?
      ⟨.fields before (some k) :: around, .value⟩ = _
    rw [hx]
    rw [List.reverse_cons, List.append_assoc] at hxs
    exact hxs

end

/-- The compact text of a value is read as its draft. -/
theorem ofText?_render (j : Json) : Draft.ofText? j.render = some j.written := by
  have htokens := tokens?_toChars j Numeral.ends_nil
  have hdraft := foldlM_tokens j [] []
  rw [List.append_nil, tokens?] at htokens
  rw [List.append_nil] at hdraft
  rw [Draft.ofText?, render, String.toList_ofList, htokens]
  simp only [Option.map_some, Option.bind_some, List.append_nil]
  rw [Draft.ofTokens?, hdraft]
  rfl

/-! ### Values -/

mutual

/-- The value with each number replaced by the one that its numeral is read as; none if one of
them is out of the range of doubles. -/
def reread? : Json → Option Json
  | null => some null
  | bool b => some (bool b)
  | num n => n.reread?.map num
  | str s => some (str s)
  | arr xs => (rereadItems? xs).map arr
  | obj xs => (rereadFields? xs).map obj

/-- The items with each number replaced. -/
def rereadItems? : List Json → Option (List Json)
  | [] => some []
  | x :: xs => do
    let x ← reread? x
    let xs ← rereadItems? xs
    pure (x :: xs)

/-- The fields with each number replaced. -/
def rereadFields? : List (String × Json) → Option (List (String × Json))
  | [] => some []
  | (k, x) :: xs => do
    let x ← reread? x
    let xs ← rereadFields? xs
    pure ((k, x) :: xs)

end

theorem map_fst_of_rereadFields? {xs ys : List (String × Json)} (h : rereadFields? xs = some ys) :
    ys.map (·.1) = xs.map (·.1) := by
  induction xs generalizing ys with
  | nil => cases h; rfl
  | cons f xs ih =>
    simp only [rereadFields?, Option.bind_eq_bind, Option.bind_eq_some_iff] at h
    obtain ⟨x, -, zs, hzs, h⟩ := h
    obtain rfl := Option.some.inj h
    rw [List.map_cons, List.map_cons, ih hzs]

mutual

/-- The draft of a well-formed value has the value in which numbers are replaced. -/
theorem settle?_written : ∀ {j : Json}, j.WellFormed → j.written.settle? = j.reread?
  | .null, _ | .bool _, _ | .num _, _ | .str _, _ => rfl
  | .arr xs, .arr h => by
    rw [written, Draft.settle?, settleItems?_written h, reread?]
  | .obj xs, .obj hk h => by
    rw [written, Draft.settle?, settleFields?_written h, reread?]
    cases hys : rereadFields? xs with
    | none => rfl
    | some ys =>
      have hys' : Fields.Ascending ys := by
        rw [Fields.ascending_iff] at hk ⊢
        rwa [map_fst_of_rereadFields? hys]
      rw [Option.map_some, Option.map_some, object, Fields.ofList_of_ascending hys']

theorem settleItems?_written : ∀ {xs : List Json}, (∀ x ∈ xs, WellFormed x) →
    Draft.settleItems? (writtenItems xs) = rereadItems? xs
  | [], _ => rfl
  | x :: xs, h => by
    rw [writtenItems, Draft.settleItems?, settle?_written (h x List.mem_cons_self),
      settleItems?_written fun y hy => h y (List.mem_cons_of_mem _ hy), rereadItems?]

theorem settleFields?_written : ∀ {xs : List (String × Json)}, (∀ f ∈ xs, WellFormed f.2) →
    Draft.settleFields? (writtenFields xs) = rereadFields? xs
  | [], _ => rfl
  | (k, x) :: xs, h => by
    rw [writtenFields, Draft.settleFields?, settle?_written (h _ List.mem_cons_self),
      settleFields?_written fun y hy => h y (List.mem_cons_of_mem _ hy), rereadFields?]
    rfl

end

mutual

theorem depth_written : ∀ j : Json, j.written.depth = j.depth
  | .null | .bool _ | .num _ | .str _ => rfl
  | .arr xs => by rw [written, Draft.depth, depth, depthItems_written]
  | .obj xs => by rw [written, Draft.depth, depth, depthFields_written]

theorem depthItems_written : ∀ xs : List Json, Draft.depthItems (writtenItems xs) = depthItems xs
  | [] => rfl
  | x :: xs => by rw [writtenItems, Draft.depthItems, depth_written, depthItems_written, depthItems]

theorem depthFields_written : ∀ xs : List (String × Json),
    Draft.depthFields (writtenFields xs) = depthFields xs
  | [] => rfl
  | (k, x) :: xs => by
    rw [writtenFields, Draft.depthFields, depth_written, depthFields_written, depthFields]

end

/-- What the reader makes of the compact text of a value. -/
theorem read?_render {j : Json} (h : j.WellFormed) :
    read? j.render = if j.depth ≤ maxDepth then j.reread? else none := by
  -- The depth is that of the draft; its value is made only if it is not too deep.
  rw [read?, readWithin?, ofText?_render, Option.bind_some, Draft.settleWithin?, depth_written,
    settle?_written h]

/-! ### Values that are read back -/

mutual

theorem reread?_eq_self_iff : ∀ j : Json,
    j.reread? = some j ↔ ∀ n ∈ j.numbers, n.reread? = some n
  | .null | .bool _ | .str _ => by simp [reread?, numbers]
  | .num n => by simp [reread?, numbers]
  | .arr xs => by
    rw [numbers, ← rereadItems?_eq_self_iff xs, reread?, Option.map_eq_some_iff]
    simp
  | .obj xs => by
    rw [numbers, ← rereadFields?_eq_self_iff xs, reread?, Option.map_eq_some_iff]
    simp

theorem rereadItems?_eq_self_iff : ∀ xs : List Json,
    rereadItems? xs = some xs ↔ ∀ n ∈ numbersOfItems xs, n.reread? = some n
  | [] => by simp [rereadItems?, numbersOfItems]
  | x :: xs => by
    rw [numbersOfItems, List.forall_mem_append, ← reread?_eq_self_iff x,
      ← rereadItems?_eq_self_iff xs]
    simp [rereadItems?, Option.bind_eq_some_iff]

theorem rereadFields?_eq_self_iff : ∀ xs : List (String × Json),
    rereadFields? xs = some xs ↔ ∀ n ∈ numbersOfFields xs, n.reread? = some n
  | [] => by simp [rereadFields?, numbersOfFields]
  | (k, x) :: xs => by
    rw [numbersOfFields, List.forall_mem_append, ← reread?_eq_self_iff x,
      ← rereadFields?_eq_self_iff xs]
    simp [rereadFields?, Option.bind_eq_some_iff]

end

/-- A value is read back from its compact text exactly when it is not nested too deep and each of
its numbers is read back. -/
theorem read?_render_eq_self_iff {j : Json} (h : j.WellFormed) :
    read? j.render = some j ↔
      j.depth ≤ maxDepth ∧ ∀ n ∈ j.numbers, n.reread? = some n := by
  rw [read?_render h, ← reread?_eq_self_iff]
  split_ifs with hd <;> simp [hd]

/-- Whether a value is read back from its compact text, however deep it is nested. -/
def Legible (j : Json) : Prop := j.WellFormed ∧ j.reread? = some j

theorem legible_str (s : String) : Legible (.str s) := ⟨.str s, rfl⟩

theorem Legible.obj {fields : Fields Json} (hk : fields.Ascending) (h : ∀ f ∈ fields, f.2.Legible) :
    Legible (.obj fields) := by
  have hfields : rereadFields? fields = some fields := by
    clear hk
    induction fields with
    | nil => rfl
    | cons f fields ih =>
      obtain ⟨hf, hrest⟩ := List.forall_mem_cons.mp h
      rw [rereadFields?, hf.2, ih hrest]
      rfl
  exact ⟨.obj hk fun f hf => (h f hf).1, by rw [reread?, hfields, Option.map_some]⟩

/-- Without doubles a value is read back. -/
theorem WellFormed.legible {j : Json} (h : j.WellFormed)
    (hints : ∀ n ∈ j.numbers, ∃ k, n = .int k) : j.Legible := by
  refine ⟨h, (reread?_eq_self_iff j).mpr fun n hn => ?_⟩
  obtain ⟨k, rfl⟩ := hints n hn
  obtain ⟨hlow, hhigh⟩ := h.fits _ hn
  exact Number.reread?_int hlow hhigh

/-- Values that are read back are told apart by their texts. -/
theorem eq_of_render_eq {j k : Json} (hj : j.Legible) (hk : k.Legible)
    (h : j.render = k.render) : j = k := by
  have hwritten : j.written = k.written := by
    have htext := ofText?_render j
    rw [h, ofText?_render k] at htext
    exact (Option.some.inj htext).symm
  have hsettled := settle?_written hj.1
  rw [hwritten, settle?_written hk.1, hk.2, hj.2] at hsettled
  exact (Option.some.inj hsettled).symm

/-! ### The ends of a text -/

theorem exists_fieldChars_eq_append (xs : List (String × Json)) :
    ∃ cs, fieldChars xs = cs ++ ['\x7d'] := by
  induction xs with
  | nil => exact ⟨[], rfl⟩
  | cons f xs ih =>
    obtain ⟨cs, hcs⟩ := ih
    refine ⟨',' :: (stringChars f.1 ++ ':' :: (f.2.toChars ++ cs)), ?_⟩
    rw [fieldChars, hcs]
    simp

/-- The text of an object stands between braces. -/
theorem exists_toChars_obj (fields : List (String × Json)) :
    ∃ cs, (obj fields).toChars = '\x7b' :: (cs ++ ['\x7d']) := by
  rcases fields with _ | ⟨⟨k, x⟩, xs⟩
  · exact ⟨[], rfl⟩
  · obtain ⟨cs, hcs⟩ := exists_fieldChars_eq_append xs
    refine ⟨stringChars k ++ ':' :: (x.toChars ++ cs), ?_⟩
    rw [toChars, hcs]
    simp

/-- Just the blanks go around the text of an object. -/
theorem trimChars_toChars_obj {before after : List Char} (hbefore : before.all Text.isBlank = true)
    (hafter : after.all Text.isBlank = true) (fields : List (String × Json)) :
    Text.trimChars (before ++ ((obj fields).toChars ++ after)) = (obj fields).toChars := by
  obtain ⟨cs, hcs⟩ := exists_toChars_obj fields
  rw [hcs]
  exact Text.trimChars_append hbefore hafter (by decide) (by decide) cs

/-- There are no blanks around the text of an object. -/
theorem trim_render_obj (fields : List (String × Json)) :
    Text.trim (obj fields).render = (obj fields).render := by
  have htrim : Text.trimChars ([] ++ ((obj fields).toChars ++ [])) = (obj fields).toChars :=
    trimChars_toChars_obj rfl rfl fields
  rw [List.nil_append, List.append_nil] at htrim
  rw [Text.trim, render, String.toList_ofList, htrim]

theorem render_obj_ne_empty (fields : List (String × Json)) : (obj fields).render ≠ "" := by
  obtain ⟨cs, hcs⟩ := exists_toChars_obj fields
  rw [render, hcs, Ne, ← String.ofList_nil, String.ofList_inj]
  exact List.cons_ne_nil _ _

end Polyglot.Json
