import Polyglot.Proofs.Request.Binding
import Polyglot.Proofs.Script.Lexemes

/-!
# Spelling tokens

`Spells` says how tokens may be written one after another: integers by their digits, strings between
quotes of either kind, with escapes where they are needed, names and keywords by their letters, and all
others by their signs, with a blank and any gap between two of them.  A text that spells tokens has
just these tokens, and the end after them (`tokenize_spelled`).

Each form of token is scanned as it was spelled if a blank or nothing follows, since none of them goes
on with a blank (`Kind.SpelledBy.scannedBefore`).  So the text is cut where one token was spelled
after another (`Spells.exists_cuts`).
-/

namespace Polyglot.Script

/-! ### How tokens are spelled -/

namespace Kind

/-- The words that stand for a token, other than names. -/
def keywords : Kind → List String
  | .function => ["function"]
  | .const => ["const"]
  | .let => ["let", "var"]
  | .return => ["return"]
  | .if => ["if"]
  | .else => ["else"]
  | .for => ["for"]
  | .of => ["of"]
  | .throw => ["throw"]
  | .true => ["true"]
  | .false => ["false"]
  | .null => ["null", "undefined"]
  | _ => []

/-- The signs that stand for a token. -/
def signs : Kind → List (List Char)
  | .openParen => [['(']]
  | .closeParen => [[')']]
  | .openBrace => [['\x7b']]
  | .closeBrace => [['\x7d']]
  | .openBracket => [['[']]
  | .closeBracket => [[']']]
  | .comma => [[',']]
  | .semicolon => [[';']]
  | .dot => [['.']]
  | .question => [['?']]
  | .colon => [[':']]
  | .arrow => [['=', '>']]
  | .assign => [['=']]
  | .plusAssign => [['+', '=']]
  | .equal => [['=', '=', '='], ['=', '=']]
  | .notEqual => [['!', '=', '='], ['!', '=']]
  | .less => [['<']]
  | .lessEqual => [['<', '=']]
  | .greater => [['>']]
  | .greaterEqual => [['>', '=']]
  | .plus => [['+']]
  | .minus => [['-']]
  | .star => [['*']]
  | .slash => [['/']]
  | .percent => [['%']]
  | .bang => [['!']]
  | .and => [['&', '&']]
  | .or => [['|', '|']]
  | _ => []

end Kind

/-- How a character of a string is written between the given quotes: the end of a line, the quote and
the backslash as escapes, and all others as they are. -/
def Item.ofChar (quote c : Char) : Item :=
  if c = '\n' then .escaped 'n' else if c = quote ∨ c = '\\' then .escaped c else .plain c

/-- A string between quotes. -/
def quoted (quote : Char) (s : String) : List Char :=
  quote :: ((s.toList.flatMap fun c => (Item.ofChar quote c).written) ++ [quote])

/-- Whether characters are a word: one that may begin a name, and others that may stand in a name. -/
def IsWord : List Char → Prop
  | [] => False
  | c :: cs => beginsName c = true ∧ ∀ d ∈ cs, continuesName d = true

instance : DecidablePred IsWord
  | [] => inferInstanceAs (Decidable False)
  | c :: cs => decidable_of_iff (beginsName c = true ∧ cs.all continuesName = true)
      (and_congr_right fun _ => List.all_eq_true)

/-- Whether a token can be spelled: integers of 64 bits, words that are no keywords as names, strings,
keywords, punctuation and operators. -/
def Kind.HasSpelling : Kind → Prop
  | .int n => (n : Int) ≤ Text.maxInt64
  | .name w => IsWord w.toList ∧ ∀ k : Kind, w ∉ k.keywords
  | .eof => False
  | _ => True

/-- Whether a token is spelled by the given characters. -/
inductive Kind.SpelledBy : Kind → List Char → Prop where
  /-- An integer of 64 bits is spelled by its digits. -/
  | int {n : Nat} (hn : (n : Int) ≤ Text.maxInt64) : SpelledBy (.int n) (Decimal.digits n)
  /-- A string is spelled between quotes of either kind. -/
  | text {quote : Char} (hquote : quote = '"' ∨ quote = '\'') (s : String) :
    SpelledBy (.text s) (quoted quote s)
  /-- A name is spelled by itself.  It is a word, but no keyword. -/
  | name {w : String} (hw : IsWord w.toList) (hkeyword : ∀ k : Kind, w ∉ k.keywords) :
    SpelledBy (.name w) w.toList
  /-- A keyword is spelled by one of its words. -/
  | keyword {k : Kind} {w : String} (hw : w ∈ k.keywords) : SpelledBy k w.toList
  /-- Punctuation and operators are spelled by one of their signs. -/
  | sign {k : Kind} {cs : List Char} (hcs : cs ∈ k.signs) : SpelledBy k cs

/-- Whether a text spells tokens one after another, with a blank after each but perhaps the last, and
with more blanks and comments after this blank. -/
inductive Spells : List Kind → List Char → Prop where
  /-- No tokens. -/
  | nil : Spells [] []
  /-- A last token. -/
  | last {k : Kind} {cs : List Char} (hk : k.SpelledBy cs) : Spells [k] cs
  /-- A token before others. -/
  | cons {k : Kind} {ks : List Kind} {cs gap text : List Char} {blank : Char} (hk : k.SpelledBy cs)
    (hblank : Text.isBlank blank = true) (hgap : Gap gap) (hks : Spells ks text) :
    Spells (k :: ks) (cs ++ blank :: (gap ++ text))

/-! ### Scanning what is spelled -/

/-- Whether a text begins with a blank if it is not empty. -/
def BlankAhead (rest : List Char) : Prop := ∀ c ∈ rest.head?, Text.isBlank c = true

section

variable {rest : List Char}

/-- Characters of a class are taken as far as they go before a blank. -/
theorem takeWhile_append_of_blankAhead {p : Char → Bool} {cs : List Char}
    (hp : ∀ c, Text.isBlank c = true → p c = false) (hcs : ∀ c ∈ cs, p c = true)
    (hrest : BlankAhead rest) : (cs ++ rest).takeWhile p = cs ∧ (cs ++ rest).dropWhile p = rest := by
  have hstop : rest.takeWhile p = [] ∧ rest.dropWhile p = rest := by
    cases rest with
    | nil => exact ⟨rfl, rfl⟩
    | cons c rest =>
      have hc : ¬p c = true := by simp [hp c (hrest c rfl)]
      exact ⟨List.takeWhile_cons_of_neg hc, List.dropWhile_cons_of_neg hc⟩
  rw [List.takeWhile_append_of_pos hcs, List.dropWhile_append_of_pos hcs, hstop.1, hstop.2,
    List.append_nil]
  exact ⟨rfl, rfl⟩

theorem not_startsComment_of_ne {c : Char} (h : c ≠ '/') (cs : List Char) :
    ¬StartsComment (c :: cs) := by
  rintro (⟨t, ht⟩ | ⟨t, ht⟩)
  · exact h (List.cons.inj ht).1.symm
  · exact h (List.cons.inj ht).1.symm

/-- Whether a token is scanned from its characters if the rest of the text follows them, and its
characters begin no comment there. -/
def ScannedBefore (rest : List Char) (k : Kind) (cs : List Char) : Prop :=
  ∃ c tail, cs = c :: tail ∧ scanToken c (tail ++ rest) = .ok (k, rest) ∧
    ¬StartsComment (c :: (tail ++ rest))

theorem scanSign?_of_mem_signs {k : Kind} {cs : List Char} (h : cs ∈ k.signs)
    (hrest : BlankAhead rest) :
    ∃ c tail, cs = c :: tail ∧ scanSign? c (tail ++ rest) = some (k, rest) := by
  have hne : ∀ d ∈ signCharacters, ∀ tail, rest ≠ d :: tail := by
    rintro d hd tail rfl
    have hnone : ∀ d ∈ signCharacters, d ∉ blanks :=
      List.all_iff_forall_prop.mp (by decide +kernel)
    exact hnone d hd (mem_blanks (hrest d rfl))
  -- No sign goes on with what follows.
  have hequal := hne '=' (by decide)
  have hgreater := hne '>' (by decide)
  cases k with
  | plus | bang | less | greater | assign =>
    obtain rfl := List.mem_singleton.mp h
    exact ⟨_, _, rfl, by simp [scanSign?, hequal]⟩
  | equal | notEqual =>
    rcases List.mem_pair.mp h with rfl | rfl
    · exact ⟨_, _, rfl, rfl⟩
    · exact ⟨_, _, rfl, by simp [scanSign?]⟩
  | openParen | closeParen | openBrace | closeBrace | openBracket | closeBracket | comma | semicolon
  | dot | question | colon | arrow | plusAssign | lessEqual | greaterEqual | minus | star | slash
  | percent | and | or =>
    -- These signs are scanned without a look at what follows.
    obtain rfl := List.mem_singleton.mp h
    exact ⟨_, _, rfl, rfl⟩
  | _ => cases h

theorem scannedBefore_sign {k : Kind} {cs : List Char} (h : cs ∈ k.signs) (hrest : BlankAhead rest) :
    ScannedBefore rest k cs := by
  obtain ⟨c, tail, rfl, hsign⟩ := scanSign?_of_mem_signs h hrest
  refine ⟨c, tail, rfl, by rw [scanToken, hsign], fun hcomment => ?_⟩
  -- A comment would begin with the sign `/`, and what follows this sign is a blank.
  obtain ⟨d, hd, t, rfl, ht⟩ : ∃ d ∈ ['/', '*'], ∃ t, c = '/' ∧ tail ++ rest = d :: t := by
    rcases hcomment with ⟨t, ht⟩ | ⟨t, ht⟩
    · exact ⟨'/', by decide, t, (List.cons.inj ht).1.symm, (List.cons.inj ht).2.symm⟩
    · exact ⟨'*', by decide, t, (List.cons.inj ht).1.symm, (List.cons.inj ht).2.symm⟩
  have hslash : scanSign? '/' (tail ++ rest) = some (.slash, tail ++ rest) := rfl
  rw [hslash] at hsign
  rw [(Prod.mk.inj (Option.some.inj hsign)).2] at ht
  have hblank := hrest d (by rw [ht]; rfl)
  have hnone : ∀ d ∈ ['/', '*'], Text.isBlank d = false := List.all_iff_forall_prop.mp (by decide)
  rw [hnone d hd] at hblank
  cases hblank

theorem not_beginsName_of_isDigit {c : Char} (h : c.isDigit = true) : beginsName c = false := by
  have hall : ∀ c ∈ (List.range' 48 10).map Char.ofNat, beginsName c = false :=
    List.all_iff_forall_prop.mp (by decide +kernel)
  have hbounds := Char.isDigit_iff_toNat.mp h
  refine hall c (List.mem_map.mpr ⟨c.toNat, ?_, Char.ofNat_toNat c⟩)
  rw [List.mem_range'_1]
  exact ⟨hbounds.1, Nat.lt_succ_of_le hbounds.2⟩

/-- A character of a class to which no sign and no quote belongs begins neither a sign nor a string. -/
theorem scanSign?_of_class {p : Char → Bool}
    (hp : ∀ d ∈ '"' :: '\'' :: signCharacters, p d = false) {c : Char} (hc : p c = true) :
    (∀ cs, scanSign? c cs = none) ∧ ¬(c = '"' ∨ c = '\'') ∧ c ≠ '/' := by
  have hne : ∀ d ∈ '"' :: '\'' :: signCharacters, c ≠ d := by
    rintro d hd rfl
    rw [hp c hd] at hc
    cases hc
  refine ⟨scanSign?_of_not_mem fun hmem => hne c ?_ rfl, ?_, hne '/' (by decide)⟩
  · exact List.mem_cons_of_mem _ (List.mem_cons_of_mem _ hmem)
  · rintro (h | h)
    · exact hne '"' (by decide) h
    · exact hne '\'' (by decide) h

/-- A word is scanned as a keyword or a name. -/
theorem scannedBefore_word {cs : List Char} (h : IsWord cs) (hrest : BlankAhead rest) :
    ScannedBefore rest (.ofWord (String.ofList cs)) cs := by
  cases cs with
  | nil => cases h
  | cons c cs =>
    obtain ⟨hc, hcs⟩ := h
    have hbegins : ∀ d ∈ '"' :: '\'' :: signCharacters, beginsName d = false :=
      List.all_iff_forall_prop.mp (by decide +kernel)
    obtain ⟨hsign, hquote, hslash⟩ := scanSign?_of_class hbegins hc
    have hdigit : ¬c.isDigit = true := by
      intro hdigit
      rw [not_beginsName_of_isDigit hdigit] at hc
      cases hc
    obtain ⟨htake, hdrop⟩ :=
      takeWhile_append_of_blankAhead (fun _ => continuesName_of_isBlank) hcs hrest
    refine ⟨c, cs, rfl, ?_, not_startsComment_of_ne hslash _⟩
    rw [scanToken, hsign]
    dsimp only
    rw [if_neg hquote, if_neg hdigit, if_pos hc, htake, hdrop]

theorem ofWord_of_mem_keywords {k : Kind} {w : String} (h : w ∈ k.keywords) :
    Kind.ofWord w = k ∧ IsWord w.toList := by
  cases k
  all_goals simp only [Kind.keywords, List.mem_cons, List.not_mem_nil, or_false] at h
  all_goals first
    | (subst h; decide +kernel)
    | (rcases h with rfl | rfl <;> decide +kernel)

theorem ofWord_of_not_mem_keywords {w : String} (h : ∀ k : Kind, w ∉ k.keywords) :
    Kind.ofWord w = .name w := by
  have hne : ∀ (k : Kind) (v : String), v ∈ k.keywords → w ≠ v := by
    rintro k _ hv rfl
    exact h k hv
  simp only [Kind.ofWord, hne .function "function" (by decide), hne .const "const" (by decide),
    hne .let "let" (by decide), hne .let "var" (by decide), hne .return "return" (by decide),
    hne .if "if" (by decide), hne .else "else" (by decide), hne .for "for" (by decide),
    hne .of "of" (by decide), hne .throw "throw" (by decide), hne .true "true" (by decide),
    hne .false "false" (by decide), hne .null "null" (by decide),
    hne .null "undefined" (by decide), or_self, if_false]

theorem scannedBefore_int {n : Nat} (hn : (n : Int) ≤ Text.maxInt64) (hrest : BlankAhead rest) :
    ScannedBefore rest (.int n) (Decimal.digits n) := by
  obtain ⟨c, cs, hcs⟩ := List.exists_cons_of_ne_nil (digits_ne_nil n)
  have hdigits : ∀ d ∈ c :: cs, d.isDigit = true := hcs ▸ fun d hd => isDigit_of_mem_digits hd
  obtain ⟨hc, htail⟩ := List.forall_mem_cons.mp hdigits
  have hnumber : ∀ d ∈ '"' :: '\'' :: signCharacters, d.isDigit = false :=
    List.all_iff_forall_prop.mp (by decide)
  obtain ⟨hsign, hquote, hslash⟩ := scanSign?_of_class hnumber hc
  obtain ⟨htake, hdrop⟩ := takeWhile_append_of_blankAhead (fun _ => isDigit_of_isBlank) htail hrest
  have hliteral : intLiteral (c :: cs) = .ok (.int n) := by
    rw [intLiteral, ← hcs, Request.readDigits_digits, Option.filter_some, if_pos (by simpa using hn)]
  refine ⟨c, cs, hcs, ?_, not_startsComment_of_ne hslash _⟩
  rw [scanToken, hsign]
  dsimp only
  rw [if_neg hquote, if_pos hc, htake, hdrop, hliteral]
  rfl

/-- A character as it is written between quotes stands for itself. -/
theorem ofChar_spec {quote : Char} (hquote : quote = '"' ∨ quote = '\'') (c : Char) :
    (Item.ofChar quote c).Fits quote ∧ (Item.ofChar quote c).value = c := by
  unfold Item.ofChar
  split
  · rename_i hnewline
    subst hnewline
    exact ⟨by simp [Item.Fits], rfl⟩
  · rename_i hnewline
    split
    · rename_i hescaped
      have hall : ∀ d ∈ ['"', '\'', '\\'], d ≠ 'u' ∧ unescape d = d :=
        List.all_iff_forall_prop.mp (by decide)
      refine hall c ?_
      rcases hescaped with rfl | rfl
      · rcases hquote with rfl | rfl <;> decide
      · decide
    · rename_i hplain
      obtain ⟨hc, hbackslash⟩ := not_or.mp hplain
      exact ⟨⟨hc, hbackslash, hnewline⟩, rfl⟩

theorem scannedBefore_text {quote : Char} (hquote : quote = '"' ∨ quote = '\'') (s : String) :
    ScannedBefore rest (.text s) (quoted quote s) := by
  have hquotes : ∀ d ∈ ['"', '\''], d ∉ signCharacters ∧ d ≠ '\\' ∧ d ≠ '/' :=
    List.all_iff_forall_prop.mp (by decide)
  obtain ⟨hsign, hbackslash, hslash⟩ := hquotes quote (by simpa using hquote)
  have hvalues : (s.toList.map (Item.ofChar quote)).map Item.value = s.toList := by
    rw [List.map_map]
    exact (List.map_congr_left fun c _ => (ofChar_spec hquote c).2).trans (List.map_id _)
  have hfits : ∀ item ∈ s.toList.map (Item.ofChar quote), item.Fits quote :=
    List.forall_mem_map.mpr fun c _ => (ofChar_spec hquote c).1
  have hscan := scanString_written hbackslash hfits rest
  rw [hvalues, List.flatMap_map] at hscan
  refine ⟨quote, _, rfl, ?_, not_startsComment_of_ne hslash _⟩
  rw [scanToken, scanSign?_of_not_mem hsign]
  dsimp only
  rw [if_pos hquote, List.append_assoc, List.singleton_append, hscan]
  simp [Except.map]

/-- What spells a token is scanned as this token before a blank and at the end. -/
theorem Kind.SpelledBy.scannedBefore {k : Kind} {cs : List Char} (h : k.SpelledBy cs)
    (hrest : BlankAhead rest) : ScannedBefore rest k cs := by
  cases h with
  | int hn => exact scannedBefore_int hn hrest
  | text hquote s => exact scannedBefore_text hquote s
  | @name w hw hkeyword =>
    have hscan := scannedBefore_word hw hrest
    rwa [String.ofList_toList, ofWord_of_not_mem_keywords hkeyword] at hscan
  | @keyword _ w hw =>
    obtain ⟨hword, hw⟩ := ofWord_of_mem_keywords hw
    have hscan := scannedBefore_word hw hrest
    rwa [String.ofList_toList, hword] at hscan
  | sign hcs => exact scannedBefore_sign hcs hrest

end

/-! ### Whole texts -/

/-- A gap in front of a text becomes a part of the gap in front of its first token. -/
theorem Cuts.append_left {gap cs : List Char} {ps : List Piece} (hgap : Gap gap) (h : Cuts cs ps) :
    ∃ qs, Cuts (gap ++ cs) qs ∧ qs.map Piece.kind = ps.map Piece.kind := by
  cases h with
  | eof h => exact ⟨_, .eof (h.append hgap), rfl⟩
  | @token gap' _ _ _ _ _ h hcomment hscan hrest =>
    rw [← List.append_assoc]
    exact ⟨_, .token (hgap.append h) hcomment hscan hrest, rfl⟩

theorem Kind.SpelledBy.cuts {k : Kind} {cs rest : List Char} {ps : List Piece} (h : k.SpelledBy cs)
    (hblank : BlankAhead rest) (hrest : Cuts rest ps) :
    ∃ qs, Cuts (cs ++ rest) qs ∧ qs.map Piece.kind = k :: ps.map Piece.kind := by
  obtain ⟨c, tail, rfl, hscan, hcomment⟩ := h.scannedBefore hblank
  exact ⟨_, .token .nil hcomment hscan hrest, rfl⟩

/-- A text that spells tokens is cut into them. -/
theorem Spells.exists_cuts {ks : List Kind} {text : List Char} (h : Spells ks text) :
    ∃ ps, Cuts text ps ∧ ps.map Piece.kind = ks ++ [.eof] := by
  have hend : Cuts [] [⟨[], [], .eof⟩] := .eof (.gap .nil)
  induction h with
  | nil => exact ⟨_, hend, rfl⟩
  | @last k cs hk =>
    have hahead : BlankAhead [] := by simp [BlankAhead]
    have hcuts := hk.cuts hahead hend
    rwa [List.append_nil] at hcuts
  | @cons k ks cs gap text blank hk hblank hgap _ ih =>
    obtain ⟨ps, hps, hkinds⟩ := ih
    obtain ⟨qs, hqs, hkinds'⟩ := hps.append_left (.blank hblank hgap)
    have hahead : BlankAhead (blank :: (gap ++ text)) := by simpa [BlankAhead] using hblank
    obtain ⟨rs, hrs, hkinds''⟩ := hk.cuts hahead hqs
    exact ⟨rs, hrs, by rw [hkinds'', hkinds', hkinds]; rfl⟩

theorem Kind.HasSpelling.exists_spelledBy {k : Kind} (h : k.HasSpelling) : ∃ cs, k.SpelledBy cs := by
  cases k with
  | int n => exact ⟨_, .int h⟩
  | text s => exact ⟨_, .text (.inl rfl) s⟩
  | name w => exact ⟨_, .name h.1 h.2⟩
  | eof => cases h
  | _ => first
    | exact ⟨_, .keyword List.mem_cons_self⟩
    | exact ⟨_, .sign List.mem_cons_self⟩

theorem exists_spells {ks : List Kind} (h : ∀ k ∈ ks, k.HasSpelling) : ∃ text, Spells ks text := by
  induction ks with
  | nil => exact ⟨_, .nil⟩
  | cons k ks ih =>
    obtain ⟨hk, hks⟩ := List.forall_mem_cons.mp h
    obtain ⟨cs, hcs⟩ := hk.exists_spelledBy
    obtain ⟨text, htext⟩ := ih hks
    have hblank : Text.isBlank ' ' = true := by decide
    exact ⟨_, .cons hcs hblank .nil htext⟩

/-- Tokens that can be spelled are spelled by some text, and each text that spells them has just these
tokens, and the end after them. -/
theorem tokenize_spelled {ks : List Kind} (hks : ∀ k ∈ ks, k.HasSpelling) :
    (∃ text, Spells ks text) ∧
      ∀ text, Spells ks text → ∃ tokens, tokenize (String.ofList text) = .ok tokens ∧
        tokens.map Token.kind = ks ++ [.eof] := by
  refine ⟨exists_spells hks, fun text h => ?_⟩
  obtain ⟨ps, hps, hkinds⟩ := h.exists_cuts
  refine ⟨locate 1 ps, ?_, by rw [map_kind_locate, hkinds]⟩
  rw [tokenize, String.toList_ofList]
  exact tokenizeFrom_of_cuts hps 1

/-- A name that begins with a keyword, the sign that comments begin with, and the largest integer and a
string with the quote in it. -/
def quotientKinds : List Kind := [.name "letter", .slash, .int 9223372036854775807, .text "it's"]

/-- The tokens of `quotientKinds` with comments of both forms between them. -/
def quotientText : List Char := "letter / /*/*/ 9223372036854775807\n//\n 'it\\'s'".toList

theorem hasSpelling_quotientKinds : ∀ k ∈ quotientKinds, k.HasSpelling := by
  have hword : IsWord "letter".toList := by decide +kernel
  have hkeyword : ∀ k : Kind, "letter" ∉ k.keywords := by
    intro k
    cases k <;> simp [Kind.keywords]
  have hint : Kind.HasSpelling (.int 9223372036854775807) := Int.le_refl _
  simp only [quotientKinds, List.forall_mem_cons]
  exact ⟨⟨hword, hkeyword⟩, trivial, hint, trivial, by simp⟩

theorem spells_quotientText : Spells quotientKinds quotientText := by
  obtain ⟨⟨hword, hkeyword⟩, -, hint, -⟩ : Kind.HasSpelling (.name "letter") ∧ _ := by
    simpa [quotientKinds] using hasSpelling_quotientKinds
  have hspace : Text.isBlank ' ' = true := by decide
  have hnewline : Text.isBlank '\n' = true := by decide
  have hclosed : ¬['*', '/'] <:+: ['/'] := by decide
  have hempty : '\n' ∉ ([] : List Char) := List.not_mem_nil
  have hquote : '\'' = '"' ∨ '\'' = '\'' := .inr rfl
  have hspells : Spells quotientKinds _ :=
    .cons (.name hword hkeyword) hspace .nil <|
      .cons (.sign List.mem_cons_self) hspace (.block hclosed (.blank hspace .nil)) <|
        .cons (.int hint) hnewline (.line hempty (.blank hspace .nil)) <|
          .last (.text hquote "it's")
  exact Eq.mp (congrArg (Spells quotientKinds) (by decide +kernel)) hspells

theorem tokenize_spelled_quotient : (∀ k ∈ quotientKinds, k.HasSpelling) ∧
    Spells quotientKinds quotientText ∧
      ∃ tokens, tokenize (String.ofList quotientText) = .ok tokens ∧
        tokens.map Token.kind = quotientKinds ++ [.eof] :=
  ⟨hasSpelling_quotientKinds, spells_quotientText,
    (tokenize_spelled hasSpelling_quotientKinds).2 _ spells_quotientText⟩

end Polyglot.Script
