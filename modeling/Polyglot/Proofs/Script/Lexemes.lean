import Mathlib.Data.List.Basic
import Mathlib.Data.List.TakeWhile
import Polyglot.Proofs.Script.StringLiteral

/-!
# Texts cut into tokens

A text that has tokens is cut into pieces: what separates a token from the one before it (`Gap`), the
characters of the token, and so on up to the end (`Cuts`).  There is only one way to cut a text
(`Cuts.unique`), and its tokens are those of the pieces, each on the line that is reached by counting
the ends of lines in the gaps (`tokenizeFrom_eq_ok_iff`).  The end of a line may also stand in a token,
but only in a string and only behind a backslash (`exists_lexeme_of_scanToken`).
-/

namespace Polyglot.Script

/-! ### What separates tokens -/

/-- What may separate tokens: blanks, comments up to the end of their line, and comments between `/*`
and `*/`. -/
inductive Gap : List Char → Prop where
  /-- Nothing. -/
  | nil : Gap []
  /-- A blank. -/
  | blank {c : Char} {cs : List Char} (hblank : Text.isBlank c = true) (hrest : Gap cs) :
    Gap (c :: cs)
  /-- A comment that the end of its line closes. -/
  | line {body cs : List Char} (hbody : '\n' ∉ body) (hrest : Gap cs) :
    Gap ('/' :: '/' :: (body ++ '\n' :: cs))
  /-- A comment that is closed where `*/` comes first. -/
  | block {body cs : List Char} (hbody : ¬['*', '/'] <:+: body) (hrest : Gap cs) :
    Gap ('/' :: '*' :: (body ++ '*' :: '/' :: cs))

/-- What may stand after the last token: a gap, and perhaps a comment whose line is the last one. -/
inductive GapAtEnd : List Char → Prop where
  /-- A gap. -/
  | gap {cs : List Char} (h : Gap cs) : GapAtEnd cs
  /-- A gap and a comment. -/
  | comment {cs body : List Char} (h : Gap cs) (hbody : '\n' ∉ body) :
    GapAtEnd (cs ++ '/' :: '/' :: body)

/-- Whether a text begins with a comment. -/
def StartsComment (cs : List Char) : Prop := ['/', '/'] <+: cs ∨ ['/', '*'] <+: cs

theorem skipBlanks_of_isBlank {c : Char} (h : Text.isBlank c = true) (cs : List Char) (line : Nat) :
    skipBlanks (c :: cs) line = skipBlanks cs (line + [c].count '\n') := by
  have hslash : c ≠ '/' := by
    rintro rfl
    exact absurd h (by decide)
  rw [skipBlanks]
  · by_cases hc : c = '\n'
    · subst hc
      rfl
    · rw [if_neg hc, if_pos h, List.count_singleton, beq_eq_false_iff_ne.mpr hc]
      rfl
  · rintro rest hc
    exact absurd hc hslash
  · rintro rest hc
    exact absurd hc hslash

theorem skipBlanks_lineComment {body cs : List Char} (h : '\n' ∉ body) (line : Nat) :
    skipBlanks ('/' :: '/' :: (body ++ '\n' :: cs)) line = skipBlanks cs (line + 1) := by
  have hbody : ∀ c ∈ body, decide (c ≠ '\n') = true := by
    intro c hc
    simpa using ne_of_mem_of_not_mem hc h
  rw [skipBlanks, List.dropWhile_append_of_pos hbody]
  exact skipBlanks_of_isBlank (c := '\n') (by decide) cs line

theorem skipComment_append {body : List Char} (h : ¬['*', '/'] <:+: body) (rest : List Char)
    (line : Nat) : skipComment (body ++ '*' :: '/' :: rest) line =
      some (rest, line + body.count '\n') := by
  induction body generalizing line with
  | nil => rfl
  | cons c body ih =>
    have hbody : ¬['*', '/'] <:+: body := fun hinside => h (List.infix_cons hinside)
    have hopen : ∀ rest', c = '*' → body ++ '*' :: '/' :: rest = '/' :: rest' → False := by
      rintro rest' rfl heq
      cases body with
      | nil => exact absurd (List.cons.inj heq).1 (by decide)
      | cons d body =>
        obtain rfl : d = '/' := (List.cons.inj heq).1
        exact h ⟨[], body, rfl⟩
    rw [List.cons_append, skipComment, ih hbody, List.count_cons]
    · by_cases hc : c = '\n'
      · simp only [hc, if_true, BEq.rfl, Nat.add_assoc, Nat.add_comm 1]
      · simp [hc]
    · exact hopen

theorem exists_body_of_skipComment {cs rest : List Char} {line line' : Nat}
    (h : skipComment cs line = some (rest, line')) : ∃ body, ¬['*', '/'] <:+: body ∧
      cs = body ++ '*' :: '/' :: rest ∧ line' = line + body.count '\n' := by
  fun_induction skipComment cs line with
  | case1 => cases h
  | case2 line rest' =>
    obtain ⟨rfl, rfl⟩ := Prod.mk.inj (Option.some.inj h)
    exact ⟨[], by decide, rfl, rfl⟩
  | case3 c cs line hopen ih =>
    obtain ⟨body, hbody, rfl, rfl⟩ := ih h
    refine ⟨c :: body, ?_, rfl, ?_⟩
    · rw [List.infix_cons_iff]
      rintro (hfront | hinside)
      · obtain ⟨t, ht⟩ := hfront
        obtain ⟨rfl, rfl⟩ := List.cons.inj ht
        exact hopen _ rfl rfl
      · exact hbody hinside
    · rw [List.count_cons]
      by_cases hc : c = '\n'
      · simp only [hc, if_true, BEq.rfl, Nat.add_assoc, Nat.add_comm 1]
      · simp [hc]

theorem skipBlanks_blockComment {body : List Char} (h : ¬['*', '/'] <:+: body) (cs : List Char)
    (line : Nat) : skipBlanks ('/' :: '*' :: (body ++ '*' :: '/' :: cs)) line =
      skipBlanks cs (line + body.count '\n') := by
  rw [skipBlanks]
  split
  · rename_i hskip
    rw [skipComment_append h] at hskip
    obtain ⟨rfl, rfl⟩ := Prod.mk.inj (Option.some.inj hskip)
    rfl
  · rename_i hskip
    rw [skipComment_append h] at hskip
    cases hskip

/-- A gap is skipped, and the ends of lines in it are counted. -/
theorem skipBlanks_append {gap : List Char} (h : Gap gap) (rest : List Char) (line : Nat) :
    skipBlanks (gap ++ rest) line = skipBlanks rest (line + gap.count '\n') := by
  induction h generalizing line with
  | nil => rfl
  | @blank c cs hblank _ ih =>
    rw [List.cons_append, skipBlanks_of_isBlank hblank, ih, Nat.add_assoc, ← List.count_append]
    rfl
  | @line body cs hbody _ ih =>
    have hcount : ('/' :: '/' :: (body ++ '\n' :: cs)).count '\n' = 1 + cs.count '\n' := by
      simp [List.count_eq_zero.mpr hbody, Nat.add_comm]
    rw [hcount, ← Nat.add_assoc, ← ih]
    simp only [List.cons_append, List.append_assoc]
    exact skipBlanks_lineComment hbody line
  | @block body cs hbody _ ih =>
    have hcount : ('/' :: '*' :: (body ++ '*' :: '/' :: cs)).count '\n' =
        body.count '\n' + cs.count '\n' := by
      simp
    rw [hcount, ← Nat.add_assoc, ← ih]
    simp only [List.cons_append, List.append_assoc]
    exact skipBlanks_blockComment hbody (cs ++ rest) line

theorem skipBlanks_of_token {c : Char} {rest : List Char} (hc : Text.isBlank c = false)
    (hcomment : ¬StartsComment (c :: rest)) (line : Nat) :
    skipBlanks (c :: rest) line = .ok (c :: rest, line) := by
  have hnewline : c ≠ '\n' := by
    rintro rfl
    exact absurd hc (by decide)
  rw [skipBlanks]
  · rw [if_neg hnewline, if_neg (by simp [hc])]
  · rintro rest' rfl rfl
    exact hcomment (.inl ⟨rest', rfl⟩)
  · rintro rest' rfl rfl
    exact hcomment (.inr ⟨rest', rfl⟩)

theorem skipBlanks_atEnd {gap : List Char} (h : GapAtEnd gap) (line : Nat) :
    skipBlanks gap line = .ok ([], line + gap.count '\n') := by
  cases h with
  | gap h =>
    have hskip := skipBlanks_append h [] line
    rwa [List.append_nil, skipBlanks.eq_1] at hskip
  | @comment cs body h hbody =>
    have hdrop : body.dropWhile (· ≠ '\n') = [] := by
      rw [List.dropWhile_eq_nil_iff]
      intro c hc
      simpa using ne_of_mem_of_not_mem hc hbody
    rw [skipBlanks_append h, skipBlanks, hdrop, skipBlanks]
    simp [List.count_eq_zero.mpr hbody]

theorem Gap.append {as bs : List Char} (ha : Gap as) (hb : Gap bs) : Gap (as ++ bs) := by
  induction ha with
  | nil => exact hb
  | blank hblank _ ih => exact .blank hblank ih
  | line hbody _ ih => simpa using Gap.line hbody ih
  | block hbody _ ih => simpa using Gap.block hbody ih

theorem GapAtEnd.append {as bs : List Char} (ha : Gap as) (hb : GapAtEnd bs) :
    GapAtEnd (as ++ bs) := by
  cases hb with
  | gap hb => exact .gap (ha.append hb)
  | comment hb hbody =>
    rw [← List.append_assoc]
    exact .comment (ha.append hb) hbody

/-- Whether a gap is followed by a token, or by the end. -/
inductive Separates : List Char → List Char → Prop where
  /-- The end follows. -/
  | atEnd {gap : List Char} (h : GapAtEnd gap) : Separates gap []
  /-- A character follows that begins neither a blank nor a comment. -/
  | token {gap rest : List Char} {c : Char} (h : Gap gap) (hc : Text.isBlank c = false)
    (hcomment : ¬StartsComment (c :: rest)) : Separates gap (c :: rest)

theorem Separates.append {before gap rest : List Char} (hbefore : Gap before)
    (h : Separates gap rest) : Separates (before ++ gap) rest := by
  cases h with
  | atEnd h => exact .atEnd (h.append hbefore)
  | token h hc hcomment => exact .token (hbefore.append h) hc hcomment

/-- What is skipped is a gap. -/
theorem exists_gap_of_skipBlanks {cs rest : List Char} {line line' : Nat}
    (h : skipBlanks cs line = .ok (rest, line')) :
    ∃ gap, cs = gap ++ rest ∧ line' = line + gap.count '\n' ∧ Separates gap rest := by
  obtain ⟨n, hn⟩ : ∃ n, cs.length = n := ⟨_, rfl⟩
  induction n using Nat.strongRecOn generalizing cs line with
  | _ n ih =>
    -- A gap in front is skipped, and what comes then is shorter.
    have hskip : ∀ before tail, Gap before → before ≠ [] → cs = before ++ tail →
        ∃ gap, cs = gap ++ rest ∧ line' = line + gap.count '\n' ∧ Separates gap rest := by
      rintro before tail hbefore hne rfl
      rw [skipBlanks_append hbefore] at h
      have hpos := List.length_pos_iff.mpr hne
      have hlt : tail.length < n := by
        rw [List.length_append] at hn
        omega
      obtain ⟨gap, rfl, rfl, hgap⟩ := ih _ hlt h rfl
      exact ⟨before ++ gap, by simp, by rw [List.count_append, Nat.add_assoc], hgap.append hbefore⟩
    cases cs with
    | nil =>
      rw [skipBlanks] at h
      obtain ⟨rfl, rfl⟩ := Prod.mk.inj (Except.ok.inj h)
      exact ⟨[], rfl, rfl, .atEnd (.gap .nil)⟩
    | cons c cs =>
      by_cases hcomment : StartsComment (c :: cs)
      · rcases hcomment with ⟨tail, htail⟩ | ⟨tail, htail⟩
        · by_cases hnewline : '\n' ∈ tail
          · obtain ⟨body, tail, rfl, hbody⟩ := List.eq_append_cons_of_mem hnewline
            exact hskip ('/' :: '/' :: (body ++ ['\n'])) tail (.line hbody .nil) (by simp)
              (by simp [← htail])
          · have hend : GapAtEnd (c :: cs) := htail ▸ .comment .nil hnewline
            rw [skipBlanks_atEnd hend] at h
            obtain ⟨rfl, rfl⟩ := Prod.mk.inj (Except.ok.inj h)
            exact ⟨_, (List.append_nil _).symm, rfl, .atEnd hend⟩
        · rw [← htail, List.cons_append, List.cons_append, List.nil_append, skipBlanks] at h
          split at h
          · rename_i after line'' hclosed
            obtain ⟨body, hbody, rfl, -⟩ := exists_body_of_skipComment hclosed
            exact hskip ('/' :: '*' :: (body ++ ['*', '/'])) after (.block hbody .nil) (by simp)
              (by simp [← htail])
          · cases h
      · cases hblank : Text.isBlank c with
        | true => exact hskip [c] cs (.blank hblank .nil) (by simp) rfl
        | false =>
          rw [skipBlanks_of_token hblank hcomment] at h
          obtain ⟨rfl, rfl⟩ := Prod.mk.inj (Except.ok.inj h)
          exact ⟨[], rfl, rfl, .token .nil hblank hcomment⟩

/-! ### Characters that begin tokens -/

/-- The blank characters. -/
def blanks : List Char :=
  [0x9, 0xA, 0xB, 0xC, 0xD, 0x20, 0x85, 0xA0, 0x1680, 0x2000, 0x2001, 0x2002, 0x2003, 0x2004, 0x2005,
    0x2006, 0x2007, 0x2008, 0x2009, 0x200A, 0x2028, 0x2029, 0x202F, 0x205F, 0x3000].map Char.ofNat

theorem mem_blanks {c : Char} (h : Text.isBlank c = true) : c ∈ blanks := by
  refine List.mem_map.mpr ⟨c.toNat, ?_, Char.ofNat_toNat c⟩
  simp only [Text.isBlank, Bool.or_eq_true, Bool.and_eq_true, decide_eq_true_eq, beq_iff_eq] at h
  simp only [List.mem_cons, List.not_mem_nil, or_false]
  omega

/-- The characters that signs begin with. -/
def signCharacters : List Char :=
  ['(', ')', '\x7b', '\x7d', '[', ']', ',', ';', '.', '?', ':', '*', '/', '%', '-', '+', '=', '!', '<',
    '>', '&', '|']

theorem scanSign?_of_not_mem {c : Char} (h : c ∉ signCharacters) (rest : List Char) :
    scanSign? c rest = none := by
  unfold scanSign?
  split
  all_goals first | rfl | exact absurd (by decide) h

theorem continuesName_of_isBlank {c : Char} (h : Text.isBlank c = true) : continuesName c = false := by
  -- A list is gone through, as deciding the statement as it stands would go through all characters.
  have hall : ∀ c ∈ blanks, continuesName c = false :=
    List.all_iff_forall_prop.mp (by decide +kernel)
  exact hall c (mem_blanks h)

theorem isDigit_of_isBlank {c : Char} (h : Text.isBlank c = true) : c.isDigit = false := by
  have hall : ∀ c ∈ blanks, c.isDigit = false := List.all_iff_forall_prop.mp (by decide)
  exact hall c (mem_blanks h)

/-- What may begin a name may stand in a name. -/
theorem continuesName_of_beginsName {c : Char} (h : beginsName c = true) : continuesName c = true := by
  have hletter : isLetter c = true → isLetterOrNumber c = true := by
    unfold isLetter isLetterOrNumber
    split
    · intro halpha
      simp [Char.isAlphanum, halpha]
    · intro halphabetic
      simp [halphabetic]
  simp only [beginsName, continuesName, Bool.or_eq_true] at h ⊢
  exact h.imp_left (Or.imp_left hletter)

/-- No token begins with a blank. -/
theorem scanToken_of_isBlank {c : Char} (h : Text.isBlank c = true) (rest : List Char) :
    scanToken c rest = .error (.unexpectedCharacter c) := by
  have hsign : ∀ c ∈ blanks, c ∉ signCharacters ∧ ¬(c = '"' ∨ c = '\'') :=
    List.all_iff_forall_prop.mp (by decide +kernel)
  obtain ⟨hsign, hquote⟩ := hsign c (mem_blanks h)
  have hdigit : ¬c.isDigit = true := by rw [isDigit_of_isBlank h]; decide
  have hname : ¬beginsName c = true := by
    intro hbegins
    exact absurd (continuesName_of_beginsName hbegins) (by rw [continuesName_of_isBlank h]; decide)
  unfold scanToken
  rw [scanSign?_of_not_mem hsign]
  dsimp only
  rw [if_neg hquote, if_neg hdigit, if_neg hname]

theorem not_isBlank_of_scanToken {c : Char} {cs : List Char} {r : Kind × List Char}
    (h : scanToken c cs = .ok r) : Text.isBlank c = false := by
  refine Bool.eq_false_iff.mpr fun hblank => ?_
  rw [scanToken_of_isBlank hblank] at h
  cases h

/-! ### Lexemes -/

/-- A sign is made of the first character and others, none of which is the end of a line. -/
theorem exists_lexeme_of_scanSign? {c : Char} {cs rest : List Char} {k : Kind}
    (h : scanSign? c cs = some (k, rest)) : ∃ lexeme, cs = lexeme ++ rest ∧ '\n' ∉ lexeme := by
  unfold scanSign? at h
  split at h
  all_goals first
    | (obtain ⟨-, rfl⟩ := Prod.mk.inj (Option.some.inj h)
       first
        | exact ⟨[], rfl, by decide⟩
        | exact ⟨['='], rfl, by decide⟩
        | exact ⟨['>'], rfl, by decide⟩
        | exact ⟨['&'], rfl, by decide⟩
        | exact ⟨['|'], rfl, by decide⟩
        | exact ⟨['=', '='], rfl, by decide⟩)
    | cases h

theorem not_mem_takeWhile {p : Char → Bool} (h : p '\n' = false) (cs : List Char) :
    '\n' ∉ cs.takeWhile p := by
  intro hmem
  have htrue := List.mem_takeWhile_imp hmem
  rw [h] at htrue
  cases htrue

/-- Of the items that fit, only an escape has the end of a line. -/
theorem Item.Fits.eq_of_newline_mem {quote : Char} {item : Item} (h : item.Fits quote)
    (hmem : '\n' ∈ item.written) : item = .escaped '\n' := by
  have hdigit : ¬IsHexDigit '\n' := by decide
  cases item with
  | plain c =>
    obtain rfl : '\n' = c := by simpa [written] using hmem
    exact absurd rfl h.2.2
  | escaped c =>
    obtain rfl : '\n' = c := by simpa [written] using hmem
    rfl
  | codePoint digits =>
    have hmem : '\n' ∈ digits := by simpa [written] using hmem
    exact absurd (h.2.1 _ hmem) hdigit
  | signedCodePoint digits =>
    have hmem : '\n' ∈ digits := by simpa [written] using hmem
    exact absurd (h.2.1 _ hmem) hdigit

/-- In a string, the end of a line stands behind a backslash. -/
theorem exists_lexeme_of_scanString {quote : Char} (hquote : quote ≠ '\n') {cs s rest : List Char}
    (h : scanString quote cs = .ok (s, rest)) :
    ∃ lexeme, cs = lexeme ++ rest ∧ ('\n' ∈ lexeme → ['\\', '\n'] <:+: lexeme) := by
  obtain ⟨items, hitems, rfl, -⟩ := exists_items_of_scanString h
  refine ⟨items.flatMap Item.written ++ [quote], by simp, fun hmem => ?_⟩
  obtain ⟨item, hitem, hnewline⟩ : ∃ item ∈ items, '\n' ∈ item.written := by
    simpa [hquote.symm] using hmem
  obtain rfl := (hitems item hitem).eq_of_newline_mem hnewline
  have hinside : (Item.escaped '\n').written <:+: items.flatMap Item.written :=
    List.infix_of_mem_flatten (List.mem_map_of_mem hitem)
  exact hinside.trans (List.prefix_append _ _).isInfix

/-- A token is made of the first character and others up to what is left.  Only in a string is the end
of a line among them, and only behind a backslash. -/
theorem exists_lexeme_of_scanToken {c : Char} {cs rest : List Char} {k : Kind}
    (h : scanToken c cs = .ok (k, rest)) : ∃ lexeme, cs = lexeme ++ rest ∧
      ('\n' ∈ lexeme → (∃ s, k = .text s) ∧ ['\\', '\n'] <:+: lexeme) := by
  unfold scanToken at h
  split at h
  · rename_i hsign
    obtain rfl := Except.ok.inj h
    obtain ⟨lexeme, rfl, hnewline⟩ := exists_lexeme_of_scanSign? hsign
    exact ⟨lexeme, rfl, fun hmem => absurd hmem hnewline⟩
  · split at h
    · rename_i hquote
      have hnewline : c ≠ '\n' := by
        rintro rfl
        exact absurd hquote (by decide)
      cases hs : scanString c cs with
      | error m => rw [hs] at h; cases h
      | ok p =>
        rw [hs] at h
        obtain ⟨rfl, rfl⟩ := Prod.mk.inj (Except.ok.inj h)
        obtain ⟨lexeme, rfl, hlexeme⟩ := exists_lexeme_of_scanString hnewline hs
        exact ⟨lexeme, rfl, fun hmem => ⟨⟨_, rfl⟩, hlexeme hmem⟩⟩
    · split at h
      · cases hn : intLiteral (c :: cs.takeWhile Char.isDigit) with
        | error m => rw [hn] at h; cases h
        | ok n =>
          rw [hn] at h
          obtain ⟨-, rfl⟩ := Prod.mk.inj (Except.ok.inj h)
          refine ⟨cs.takeWhile Char.isDigit, List.takeWhile_append_dropWhile.symm, fun hmem => ?_⟩
          exact absurd hmem (not_mem_takeWhile (by decide) cs)
      · split at h
        · obtain ⟨-, rfl⟩ := Prod.mk.inj (Except.ok.inj h)
          refine ⟨cs.takeWhile continuesName, List.takeWhile_append_dropWhile.symm, fun hmem => ?_⟩
          exact absurd hmem (not_mem_takeWhile (by decide) cs)
        · cases h

/-! ### Cutting a text into tokens -/

/-- A token with its characters, and the gap in front of them. -/
structure Piece where
  /-- What separates the token from the one before it. -/
  gap : List Char
  /-- The characters of the token. -/
  lexeme : List Char
  /-- What the token is. -/
  kind : Kind

/-- The gap and the characters of the token. -/
def Piece.text (p : Piece) : List Char := p.gap ++ p.lexeme

/-- Whether a text is cut into pieces: gaps with tokens between them, each of which is scanned from
where the gap before it ends, and at last the end of the text. -/
inductive Cuts : List Char → List Piece → Prop where
  /-- The end comes after a last gap. -/
  | eof {gap : List Char} (hgap : GapAtEnd gap) : Cuts gap [⟨gap, [], .eof⟩]
  /-- A token comes after a gap that no comment goes on with. -/
  | token {gap cs rest : List Char} {c : Char} {k : Kind} {ps : List Piece} (hgap : Gap gap)
    (hcomment : ¬StartsComment (c :: (cs ++ rest))) (hscan : scanToken c (cs ++ rest) = .ok (k, rest))
    (hrest : Cuts rest ps) : Cuts (gap ++ c :: (cs ++ rest)) (⟨gap, c :: cs, k⟩ :: ps)

/-- The tokens of pieces, each on the line that is reached by counting the ends of lines in the gaps,
from the given line. -/
def locate : Nat → List Piece → List Token
  | _, [] => []
  | line, p :: ps => ⟨p.kind, line + p.gap.count '\n'⟩ :: locate (line + p.gap.count '\n') ps

theorem map_kind_locate (ps : List Piece) (line : Nat) :
    (locate line ps).map Token.kind = ps.map Piece.kind := by
  induction ps generalizing line with
  | nil => rfl
  | cons p ps ih => rw [locate, List.map_cons, ih, List.map_cons]

theorem tokenizeFrom_of_end {cs : List Char} {line line' : Nat}
    (h : skipBlanks cs line = .ok ([], line')) : tokenizeFrom cs line = .ok [⟨.eof, line'⟩] := by
  rw [tokenizeFrom]
  split
  · rename_i herror
    rw [h] at herror
    cases herror
  · rename_i hend
    rw [h] at hend
    obtain ⟨-, rfl⟩ := Prod.mk.inj (Except.ok.inj hend)
    rfl
  · rename_i htoken
    rw [h] at htoken
    cases htoken

theorem tokenizeFrom_of_token {cs tail rest : List Char} {c : Char} {k : Kind} {line line' : Nat}
    (h : skipBlanks cs line = .ok (c :: tail, line')) (hscan : scanToken c tail = .ok (k, rest)) :
    tokenizeFrom cs line = (tokenizeFrom rest line').map (⟨k, line'⟩ :: ·) := by
  rw [tokenizeFrom]
  split
  · rename_i herror
    rw [h] at herror
    cases herror
  · rename_i hend
    rw [h] at hend
    cases hend
  · rename_i htoken
    rw [h] at htoken
    obtain ⟨hcons, rfl⟩ := Prod.mk.inj (Except.ok.inj htoken)
    obtain ⟨rfl, rfl⟩ := List.cons.inj hcons
    split
    · rename_i herror
      rw [hscan] at herror
      cases herror
    · rename_i hok
      rw [hscan] at hok
      obtain ⟨rfl, rfl⟩ := Prod.mk.inj (Except.ok.inj hok)
      rfl

/-- What separates tokens is skipped. -/
theorem Separates.skipBlanks {gap rest : List Char} (h : Separates gap rest) (line : Nat) :
    skipBlanks (gap ++ rest) line = .ok (rest, line + gap.count '\n') := by
  cases h with
  | atEnd h =>
    rw [List.append_nil]
    exact skipBlanks_atEnd h line
  | token h hc hcomment => rw [skipBlanks_append h, skipBlanks_of_token hc hcomment]

/-- The pieces of a text are its tokens. -/
theorem tokenizeFrom_of_cuts {cs : List Char} {ps : List Piece} (h : Cuts cs ps) (line : Nat) :
    tokenizeFrom cs line = .ok (locate line ps) := by
  induction h generalizing line with
  | eof hgap => exact tokenizeFrom_of_end (skipBlanks_atEnd hgap line)
  | @token gap cs rest c k ps hgap hcomment hscan _ ih =>
    have hskip := (Separates.token hgap (not_isBlank_of_scanToken hscan) hcomment).skipBlanks line
    rw [tokenizeFrom_of_token hskip hscan, ih]
    rfl

/-- A text that has tokens is cut into pieces. -/
theorem exists_cuts_of_tokenizeFrom {cs : List Char} {line : Nat} {ts : List Token}
    (h : tokenizeFrom cs line = .ok ts) : ∃ ps, Cuts cs ps := by
  fun_induction tokenizeFrom cs line generalizing ts with
  | case1 => cases h
  | case2 cs line line' hskip =>
    obtain ⟨gap, rfl, -, hgap⟩ := exists_gap_of_skipBlanks hskip
    cases hgap with
    | atEnd hgap => exact ⟨_, by simpa using Cuts.eof hgap⟩
  | case3 => cases h
  | case4 cs line c tail line' hskip k rest hscan ih =>
    obtain ⟨gap, rfl, -, hgap⟩ := exists_gap_of_skipBlanks hskip
    obtain ⟨lexeme, rfl, -⟩ := exists_lexeme_of_scanToken hscan
    cases hgap with
    | token hgap _ hcomment =>
      cases hrest : tokenizeFrom rest line' with
      | error m => rw [hrest] at h; cases h
      | ok ts' =>
        obtain ⟨ps, hps⟩ := ih hrest
        exact ⟨_, .token hgap hcomment hscan hps⟩

/-- The tokens of a text are those of the pieces that it is cut into. -/
theorem tokenizeFrom_eq_ok_iff {cs : List Char} {line : Nat} {ts : List Token} :
    tokenizeFrom cs line = .ok ts ↔ ∃ ps, Cuts cs ps ∧ ts = locate line ps := by
  constructor
  · intro h
    obtain ⟨ps, hps⟩ := exists_cuts_of_tokenizeFrom h
    rw [tokenizeFrom_of_cuts hps] at h
    exact ⟨ps, hps, (Except.ok.inj h).symm⟩
  · rintro ⟨ps, hps, rfl⟩
    exact tokenizeFrom_of_cuts hps line

theorem Separates.unique {cs gap rest gap' rest' : List Char} (h : Separates gap rest)
    (h' : Separates gap' rest') (hcs : cs = gap ++ rest) (hcs' : cs = gap' ++ rest') :
    gap = gap' ∧ rest = rest' := by
  have hskip := h.skipBlanks 0
  rw [← hcs, hcs', h'.skipBlanks 0] at hskip
  obtain ⟨rfl, -⟩ := Prod.mk.inj (Except.ok.inj hskip)
  exact ⟨List.append_cancel_right (hcs.symm.trans hcs'), rfl⟩

/-- There is only one way to cut a text. -/
theorem Cuts.unique {cs : List Char} {ps qs : List Piece} (hp : Cuts cs ps) (hq : Cuts cs qs) :
    ps = qs := by
  induction hp generalizing qs with
  | @eof gap hgap =>
    generalize hcs : gap = cs at hq
    cases hq with
    | eof hgap' => rfl
    | token hgap' hcomment hscan _ =>
      have hsame := Separates.unique (.atEnd hgap)
        (.token hgap' (not_isBlank_of_scanToken hscan) hcomment) (List.append_nil gap).symm hcs
      cases hsame.2
  | @token gap lexeme rest c k ps hgap hcomment hscan _ ih =>
    have hseparates := Separates.token hgap (not_isBlank_of_scanToken hscan) hcomment
    generalize hcs : gap ++ c :: (lexeme ++ rest) = cs at hq
    cases hq with
    | eof hgap' =>
      have hsame := hseparates.unique (.atEnd hgap') hcs.symm (List.append_nil cs).symm
      cases hsame.2
    | token hgap' hcomment' hscan' hq' =>
      obtain ⟨rfl, hrest⟩ := hseparates.unique
        (.token hgap' (not_isBlank_of_scanToken hscan') hcomment') hcs.symm rfl
      obtain ⟨rfl, htail⟩ := List.cons.inj hrest
      rw [htail, hscan'] at hscan
      obtain ⟨rfl, rfl⟩ := Prod.mk.inj (Except.ok.inj hscan)
      rw [List.append_cancel_right htail, ih hq']

end Polyglot.Script
