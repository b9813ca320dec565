import Mathlib.Data.List.Basic
import Polyglot.Session

/-!
# What a program does on its streams, in order

A transcript tells what a session has written, but not when it has read.  `Session.actsOn` lists both in
the order in which they happen; what is written is the part of it that goes to a sink
(`output_runOn`, `diagnostics_runOn`).

A session that skips lines reads one after another of those that are not to be skipped
(`nextLine_wanted`).
-/

namespace Polyglot

namespace Text.Raw

theorem splitLine_map_some {cs : List Char} (h : '\n' ∉ cs) (rest : Raw) :
    splitLine (cs.map some ++ some '\n' :: rest) = (cs.map some ++ [some '\n'], rest) := by
  induction cs with
  | nil => simp [splitLine]
  | cons c cs ih =>
    obtain ⟨hc, hcs⟩ := not_or.mp (mt List.mem_cons.mpr h)
    have hne : some c ≠ some '\n' := fun heq => hc (Option.some.inj heq).symm
    simp [splitLine, hne, ih hcs]

/-- What ends with its only newline is a line. -/
theorem lines_ofString_append {s : String} (h : '\n' ∉ s.toList) (rest : Raw) :
    lines (ofString (s ++ "\n") ++ rest) = ofString (s ++ "\n") :: lines rest := by
  have hchars : ofString (s ++ "\n") = s.toList.map some ++ [some '\n'] := by
    rw [ofString, String.toList_append, List.map_append]
    rfl
  rw [hchars, List.append_assoc]
  cases hs : s.toList.map some ++ ([some '\n'] ++ rest) with
  | nil => simp at hs
  | cons c cs =>
    rw [lines, ← hs]
    have hsplit := splitLine_map_some h rest
    rw [List.singleton_append, hsplit]

end Text.Raw

namespace Session

open Text (Raw)

variable {α β : Type}

/-- What a program does on its streams. -/
inductive Act where
  /-- It writes to a stream. -/
  | wrote (sink : Sink) (text : Raw)
  /-- It takes a line from its input, with all lines before it that are to be skipped; nothing at the end
  of the input. -/
  | took (line : Raw)
  deriving DecidableEq, Repr

/-- What a session does on its streams when it is run on an input. -/
def actsOn : Session α → (input : Raw) → List Act
  | done _, _ => []
  | endless, _ => []
  | write sink text next, input => .wrote sink text :: (next ()).actsOn input
  | close _ next, input => (next ()).actsOn input
  | read skip next, input =>
    .took (nextLine skip input).1 :: (next (nextLine skip input).1).actsOn (nextLine skip input).2
  | closeInput next, _ => (next ()).actsOn []
  | sleep _ next, input => (next ()).actsOn input

/-- What an act writes to a sink. -/
def Act.textFor (sink : Sink) : Act → Raw
  | wrote s text => if s = sink then text else []
  | took _ => []

theorem output_runOn (s : Session α) (input : Raw) :
    (s.runOn input).output = (s.actsOn input).flatMap (Act.textFor .output) := by
  induction s generalizing input with
  | done | endless => rfl
  | write sink text next ih =>
    cases sink <;> simp [runOn, actsOn, Transcript.after, Act.textFor, ih]
  | close _ next ih | closeInput next ih | sleep _ next ih => exact ih () _
  | read skip next ih => exact ih _ _

theorem diagnostics_runOn (s : Session α) (input : Raw) :
    (s.runOn input).diagnostics = (s.actsOn input).flatMap (Act.textFor .diagnostics) := by
  induction s generalizing input with
  | done | endless => rfl
  | write sink text next ih =>
    cases sink <;> simp [runOn, actsOn, Transcript.after, Act.textFor, ih]
  | close _ next ih | closeInput next ih | sleep _ next ih => exact ih () _
  | read skip next ih => exact ih _ _

/-! ### Lines that are not skipped -/

/-- The lines of an input that are not to be skipped. -/
def wanted (skip : Raw → Bool) (input : Raw) : List Raw := (Raw.lines input).filter (!skip ·)

/-- The next line is the first of those that are not to be skipped, and the others come after it. -/
theorem nextLine_wanted (skip : Raw → Bool) (input : Raw) :
    (nextLine skip input).1 = (wanted skip input).headD [] ∧
      wanted skip (nextLine skip input).2 = (wanted skip input).tail := by
  induction input using nextLine.induct skip with
  | case1 => simp [nextLine, wanted, Raw.lines]
  | case2 c rest line after hsplit hskip ih =>
    have hline : (Raw.splitLine (c :: rest)).1 = line := congrArg Prod.fst hsplit
    have hwanted : wanted skip (c :: rest) = wanted skip (Raw.splitLine (c :: rest)).2 := by
      rw [wanted, Raw.lines, hline, List.filter_cons_of_neg (by simpa using hskip), wanted]
    have hnext : nextLine skip (c :: rest) = nextLine skip (Raw.splitLine (c :: rest)).2 := by
      rw [nextLine, hsplit]
      simp only [hskip, if_true]
    rw [hwanted, hnext]
    exact ih
  | case3 c rest line after hsplit hskip =>
    have hline : (Raw.splitLine (c :: rest)).1 = line := congrArg Prod.fst hsplit
    have hafter : (Raw.splitLine (c :: rest)).2 = after := congrArg Prod.snd hsplit
    have hwanted : wanted skip (c :: rest) = line :: wanted skip after := by
      rw [wanted, Raw.lines, hline, hafter, List.filter_cons_of_pos (by simpa using hskip), wanted]
    have hnext : nextLine skip (c :: rest) = (line, after) := by
      rw [nextLine, hsplit]
      simp only [hskip, if_false, Bool.false_eq_true]
    rw [hwanted, hnext]
    exact ⟨rfl, rfl⟩

end Session

end Polyglot
