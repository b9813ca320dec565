import Polyglot.Proofs.Script.Lexemes

/-!
# Lines of tokens

A token should carry the line that its first character is on: one more than the number of ends of
lines in front of it.  The ends of lines that stand inside of earlier tokens are missing from what it
carries (`tokenize_lines`).  These are the ones behind a backslash in a string, so that the lines are
right exactly if there is no such string (`tokenize_escapedNewline` has one).
-/

namespace Polyglot.Script

/-- The text in front of the first character of a token, which is given by its position. -/
def textBefore (ps : List Piece) (i : Nat) : List Char :=
  (ps.take i).flatMap Piece.text ++ (ps[i]?.map Piece.gap).getD []

/-- The characters of the tokens before the one at a position. -/
def lexemesBefore (ps : List Piece) (i : Nat) : List Char := (ps.take i).flatMap Piece.lexeme

theorem textBefore_cons (p : Piece) (ps : List Piece) (i : Nat) :
    textBefore (p :: ps) (i + 1) = p.text ++ textBefore ps i := by
  simp [textBefore]

/-- The ends of lines in gaps are counted. -/
theorem line_of_locate {ps : List Piece} {line i : Nat} {t : Token}
    (h : (locate line ps)[i]? = some t) :
    t.line + (lexemesBefore ps i).count '\n' = line + (textBefore ps i).count '\n' := by
  induction ps generalizing line i with
  | nil => cases h
  | cons p ps ih =>
    cases i with
    | zero =>
      obtain rfl : _ = t := Option.some.inj h
      simp [lexemesBefore, textBefore]
    | succ i =>
      have ih := ih h
      rw [textBefore_cons, lexemesBefore, List.take_succ_cons, List.flatMap_cons, ← lexemesBefore,
        Piece.text]
      simp only [List.count_append]
      omega

theorem Cuts.exists_eof {cs : List Char} {ps : List Piece} (h : Cuts cs ps) :
    ∃ before gap, ps = before ++ [⟨gap, [], .eof⟩] := by
  induction h with
  | eof hgap => exact ⟨[], _, rfl⟩
  | token hgap hcomment hscan _ ih =>
    obtain ⟨before, gap, rfl⟩ := ih
    exact ⟨_ :: before, gap, rfl⟩

/-- Only in a string is the end of a line inside of a token, and only behind a backslash. -/
theorem Cuts.escaped_of_newline_mem {cs : List Char} {ps : List Piece} (h : Cuts cs ps) {p : Piece}
    (hp : p ∈ ps) (hnewline : '\n' ∈ p.lexeme) :
    (∃ s, p.kind = .text s) ∧ ['\\', '\n'] <:+: p.lexeme := by
  induction h with
  | eof hgap =>
    obtain rfl := List.mem_singleton.mp hp
    cases hnewline
  | @token gap lexeme rest c k ps hgap hcomment hscan _ ih =>
    rcases List.mem_cons.mp hp with rfl | hp
    · obtain ⟨lexeme', hlexeme, hescaped⟩ := exists_lexeme_of_scanToken hscan
      obtain rfl := List.append_cancel_right hlexeme
      have hfirst : '\n' ≠ c := by
        rintro rfl
        exact absurd (not_isBlank_of_scanToken hscan) (by decide)
      obtain ⟨hkind, hinside⟩ := hescaped ((List.mem_cons.mp hnewline).resolve_left hfirst)
      exact ⟨hkind, List.infix_cons hinside⟩
    · exact ih hp

/-- Each token of a text that has tokens carries the line of its first character, less the ends of
lines inside of earlier tokens.  So the lines of all of them are right exactly if there is no end of a
line inside of a token, where it can only stand in a string and behind a backslash. -/
theorem tokenize_lines {source : String} {tokens : List Token}
    (h : tokenize source = .ok tokens) : ∃ ps, (∀ qs, Cuts source.toList qs ↔ qs = ps) ∧
      tokens.map Token.kind = ps.map Piece.kind ∧
      (∀ i t, tokens[i]? = some t →
        t.line + (lexemesBefore ps i).count '\n' = 1 + (textBefore ps i).count '\n') ∧
      ((∀ i t, tokens[i]? = some t → t.line = 1 + (textBefore ps i).count '\n') ↔
        ∀ p ∈ ps, '\n' ∉ p.lexeme) ∧
      ∀ p ∈ ps, '\n' ∈ p.lexeme → (∃ s, p.kind = .text s) ∧ ['\\', '\n'] <:+: p.lexeme := by
  obtain ⟨ps, hps, rfl⟩ := tokenizeFrom_eq_ok_iff.mp h
  refine ⟨ps, fun qs => ⟨fun hqs => hqs.unique hps, fun hqs => hqs ▸ hps⟩, map_kind_locate ps 1,
    fun i t => line_of_locate, ⟨fun hright => ?_, fun hnone i t ht => ?_⟩,
    fun p => hps.escaped_of_newline_mem⟩
  · -- All ends of lines inside of tokens are missing from the line of the last one.
    obtain ⟨before, gap, rfl⟩ := hps.exists_eof
    have hlength : before.length < (locate 1 (before ++ [⟨gap, [], .eof⟩])).length := by
      rw [← List.length_map (f := Token.kind), map_kind_locate]
      simp
    have hlast := List.getElem?_eq_getElem hlength
    have hline := line_of_locate hlast
    have hzero : (before.flatMap Piece.lexeme).count '\n' = 0 := by
      rw [hright _ _ hlast, lexemesBefore, List.take_left] at hline
      omega
    intro p hp hnewline
    rcases List.mem_append.mp hp with hp | hp
    · exact List.count_eq_zero.mp hzero (List.mem_flatMap.mpr ⟨p, hp, hnewline⟩)
    · obtain rfl := List.mem_singleton.mp hp
      cases hnewline
  · have hline := line_of_locate ht
    have hzero : (lexemesBefore ps i).count '\n' = 0 := by
      rw [List.count_eq_zero, lexemesBefore, List.mem_flatMap]
      rintro ⟨p, hp, hnewline⟩
      exact hnone p (List.mem_of_mem_take hp) hnewline
    rwa [hzero] at hline

/-- A string with the end of a line behind a backslash, and a name on the line that begins there. -/
def escapedNewline : String := "'\\\n' x"

/-- The tokens of `escapedNewline` in their places. -/
def escapedNewlinePieces : List Piece :=
  [⟨[], ['\'', '\\', '\n', '\''], .text "\n"⟩, ⟨[' '], ['x'], .name "x"⟩, ⟨[], [], .eof⟩]

theorem cuts_escapedNewline : Cuts escapedNewline.toList escapedNewlinePieces := by
  have htext : scanToken '\'' (['\\', '\n', '\''] ++ [' ', 'x']) =
      .ok (.text "\n", [' ', 'x']) := by
    have hfits : ∀ item ∈ [Item.escaped '\n'], item.Fits '\'' := by simp [Item.Fits]
    have hscan := scanString_written (by decide) hfits [' ', 'x']
    rw [scanToken, scanSign?_of_not_mem (by decide)]
    dsimp only
    rw [if_pos (by decide)]
    exact congrArg (Except.map _) hscan
  have hname : scanToken 'x' ([] ++ []) = .ok (.name "x", []) := rfl
  have hend : Cuts [] [⟨[], [], .eof⟩] := .eof (.gap .nil)
  have hgap : Gap [' '] := .blank (by decide) .nil
  have hx : Cuts [' ', 'x'] _ := .token hgap (by simp [StartsComment]) hname hend
  exact .token .nil (by simp [StartsComment]) htext hx

theorem tokens_escapedNewline :
    tokenize escapedNewline = .ok [⟨.text "\n", 1⟩, ⟨.name "x", 1⟩, ⟨.eof, 1⟩] :=
  tokenizeFrom_of_cuts cuts_escapedNewline 1

/-- The end of the line in the string is missing from the lines of the name and of the end. -/
theorem tokenize_lines_escapedNewline :
    tokenize escapedNewline = .ok [⟨.text "\n", 1⟩, ⟨.name "x", 1⟩, ⟨.eof, 1⟩] ∧
      ∃ ps, (∀ qs, Cuts escapedNewline.toList qs ↔ qs = ps) ∧
        [.text "\n", .name "x", .eof] = ps.map Piece.kind ∧
        (∀ i t, [⟨.text "\n", 1⟩, ⟨.name "x", 1⟩, ⟨.eof, 1⟩][i]? = some t →
          Token.line t + (lexemesBefore ps i).count '\n' = 1 + (textBefore ps i).count '\n') ∧
        ((∀ i t, [⟨.text "\n", 1⟩, ⟨.name "x", 1⟩, ⟨.eof, 1⟩][i]? = some t →
          Token.line t = 1 + (textBefore ps i).count '\n') ↔ ∀ p ∈ ps, '\n' ∉ p.lexeme) ∧
        ∀ p ∈ ps, '\n' ∈ p.lexeme → (∃ s, p.kind = .text s) ∧ ['\\', '\n'] <:+: p.lexeme :=
  ⟨tokens_escapedNewline, tokenize_lines tokens_escapedNewline⟩

/-- The name carries the line before the one that it is on. -/
theorem tokenize_escapedNewline : ∃ tokens ps, tokenize escapedNewline = .ok tokens ∧
    Cuts escapedNewline.toList ps ∧
      ∃ i t, tokens[i]? = some t ∧ t.line ≠ 1 + (textBefore ps i).count '\n' :=
  ⟨_, _, tokens_escapedNewline, cuts_escapedNewline, 1, ⟨.name "x", 1⟩, rfl, by decide⟩

end Polyglot.Script
