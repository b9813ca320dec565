import Polyglot.Proofs.Evaluation.Cascade

/-!
# The evaluator's own cascade

What happens when the evaluator runs a call is one of the things that may happen in a cascade
(`exists_acts_evaluate`): the evaluations that it starts, the lines that their workers hand to their
channels, the replies to these and the envelopes are those of a cascade after some acts (`IsDone`).

The proof follows the levels down.  The lines of one worker are taken one after another
(`AnswersOn.all`), and before the next is taken, the evaluation for a line has returned
(`AnswersOn.call`).
-/

namespace Polyglot

namespace Cascade

variable {ev : Evaluator} {resolve : Call.Resolver} {t : Cascade} {e n : Evaluation} {k : Nat}

/-- The envelope of a line on a channel of this level. -/
def envelopeOn (ev : Evaluator) (resolve : Call.Resolver) (depth : Nat) (line : String) : Json :=
  (ev.answerWith resolve (Evaluator.maxLevels - depth) line).1

/-- The channel of this level. -/
def channelOn (ev : Evaluator) (resolve : Call.Resolver) (depth : Nat) : Channel :=
  Evaluator.answering (ev.answerWith resolve (Evaluator.maxLevels - depth))

/-- The lines that the worker of a call hands to its channel. -/
def linesOf (ev : Evaluator) (call : Json) (channel : Channel) : List String :=
  match Dispatch.startFor ev.site call with
  | .error _ => []
  | .ok worker => (Dispatch.run ev.site call (some worker) (some channel)).forwarded

/-- A channel answers a line with the fault of a call that cannot be prepared, and otherwise with the
envelope of an evaluation that has a channel one level below. -/
theorem envelopeOn_eq (ev : Evaluator) (resolve : Call.Resolver) (depth : Nat) (line : String) :
    envelopeOn ev resolve depth line =
      match Evaluator.prepare resolve depth line with
      | .error fault => Envelope.ofFault fault
      | .ok call => (ev.evaluateWith call (some (channelOn ev resolve (depth + 1)))).1 := by
  by_cases hdeep : Evaluator.maxLevels ≤ depth
  · rw [envelopeOn, Evaluator.prepare, if_pos hdeep, Nat.sub_eq_zero_of_le hdeep]
    rfl
  · obtain ⟨levels, hlevels⟩ : ∃ levels, Evaluator.maxLevels - depth = levels + 1 :=
      ⟨Evaluator.maxLevels - depth - 1, by omega⟩
    have hbelow : Evaluator.maxLevels - (depth + 1) = levels := by omega
    rw [envelopeOn, Evaluator.prepare, if_neg hdeep, channelOn, hlevels, hbelow]
    cases h : Evaluator.callOfLine resolve line <;> simp [Evaluator.answerWith, h]

/-- Whether all has come of an evaluation that comes of it when the evaluator runs it. -/
def IsDone (ev : Evaluator) (resolve : Call.Resolver) (n : Evaluation) : Prop :=
  n.envelope = some (ev.evaluateWith n.call (some (channelOn ev resolve n.depth))).1 ∧
    n.lines = linesOf ev n.call (channelOn ev resolve n.depth) ∧
    n.replies = n.lines.zipIdx.map fun (line, i) => (i, (envelopeOn ev resolve n.depth line).render)

/-- An evaluation after its channel has answered a line. -/
def answered (ev : Evaluator) (resolve : Call.Resolver) (e : Evaluation) (line : String) : Evaluation :=
  (e.take line).reply e.lines.length (envelopeOn ev resolve e.depth line)

/-- What answering lines changes of an evaluation. -/
theorem foldl_answered (lines : List String) : ∀ e : Evaluation,
    lines.foldl (answered ev resolve) e =
      { e with
        lines := e.lines ++ lines
        replies := e.replies ++ (lines.zipIdx e.lines.length).map fun (line, i) =>
          (i, (envelopeOn ev resolve e.depth line).render) } := by
  induction lines with
  | nil => simp
  | cons line lines ih =>
    intro e
    rw [List.foldl_cons, ih]
    simp [answered, Evaluation.take, Evaluation.reply, List.zipIdx_cons]

/-! ### Acts that change one evaluation -/

theorem modify_append_left {f : Evaluation → Evaluation} (hk : k < t.length) (more : Cascade) :
    (t ++ more).modify k f = t.modify k f ++ more := by
  induction t generalizing k with
  | nil => exact absurd hk (Nat.not_lt_zero k)
  | cons first rest ih =>
    cases k with
    | zero => rfl
    | succ k => simp [ih (Nat.lt_of_succ_lt_succ hk)]

theorem modify_append_length (f : Evaluation → Evaluation) (t more : Cascade) :
    (t ++ n :: more).modify t.length f = t ++ f n :: more := by
  induction t with
  | nil => rfl
  | cons first rest ih => simp [ih]

theorem modify_congr {f g : Evaluation → Evaluation} (he : t[k]? = some e) (h : f e = g e) :
    t.modify k f = t.modify k g := by
  apply List.ext_getElem?
  intro j
  rw [List.getElem?_modify, List.getElem?_modify]
  by_cases hk : k = j
  · subst hk
    simp [he, h]
  · simp [hk]

/-- What comes of an evaluation that returns and was started for a line. -/
theorem finish_eq {j i : Nat} (hn : t[j]? = some n) (hpending : n.envelope = none)
    (hcaller : n.caller = some (k, i)) (envelope : Json) :
    t.finish j envelope = (t.modify j (·.finish envelope)).modify k (·.reply i envelope) := by
  simp [Cascade.finish, hn, hpending, hcaller]

/-- Whether some acts lead from a cascade to one with a change in one evaluation, and with more of them,
which are done. -/
def Leads (ev : Evaluator) (resolve : Call.Resolver) (t : Cascade) (k : Nat)
    (f : Evaluation → Evaluation) : Prop :=
  ∃ (acts : List Act) (more : Cascade), acts.foldl (step resolve) t = t.modify k f ++ more ∧
    ∀ n ∈ more, IsDone ev resolve n

theorem Leads.refl (ev : Evaluator) (resolve : Call.Resolver) (t : Cascade) (k : Nat) :
    Leads ev resolve t k id :=
  ⟨[], [], by simp, by simp⟩

theorem Leads.trans {f g : Evaluation → Evaluation} (hk : k < t.length) (h : Leads ev resolve t k f)
    (hnext : ∀ more, Leads ev resolve (t.modify k f ++ more) k g) :
    Leads ev resolve t k (g ∘ f) := by
  obtain ⟨acts, more, hacts, hmore⟩ := h
  obtain ⟨acts', more', hacts', hmore'⟩ := hnext more
  refine ⟨acts ++ acts', more ++ more', ?_, ?_⟩
  · have hk' : k < (t.modify k f).length := by rwa [List.length_modify]
    rw [List.foldl_append, hacts, hacts', modify_append_left hk', List.modify_modify_eq,
      List.append_assoc]
  · intro n hn
    exact (List.mem_append.mp hn).elim (hmore n) (hmore' n)

/-! ### Level by level -/

/-- Whether every line on a channel of this level can be answered as the evaluator does. -/
def AnswersOn (ev : Evaluator) (resolve : Call.Resolver) (depth : Nat) : Prop :=
  ∀ (t : Cascade) (k : Nat) (e : Evaluation) (line : String), t[k]? = some e → e.depth = depth →
    Leads ev resolve t k (answered ev resolve · line)

/-- The lines of a worker are answered one after another. -/
theorem AnswersOn.all {depth : Nat} (h : AnswersOn ev resolve depth) (lines : List String) :
    ∀ {t : Cascade} {k : Nat} {e : Evaluation}, t[k]? = some e → e.depth = depth →
      Leads ev resolve t k (lines.foldl (answered ev resolve) ·) := by
  induction lines with
  | nil => exact fun _ _ => .refl ev resolve _ _
  | cons line lines ih =>
    intro t k e he hdepth
    have hk : k < t.length := (List.getElem?_eq_some_iff.mp he).1
    refine Leads.trans (f := (answered ev resolve · line))
      (g := (lines.foldl (answered ev resolve) ·)) hk (h t k e line he hdepth) fun more => ?_
    refine ih (e := answered ev resolve e line) ?_ hdepth
    rw [List.getElem?_append_left (by rwa [List.length_modify]), getElem?_modify_of he, if_pos rfl]

/-- A line that an evaluation is started for is answered when all lines of its worker are, and it has
returned. -/
theorem AnswersOn.call {depth : Nat} (h : AnswersOn ev resolve (depth + 1)) {line : String} {call : Json}
    (he : t[k]? = some e) (hdepth : e.depth = depth)
    (hcall : Evaluator.prepare resolve depth line = .ok call) :
    Leads ev resolve t k (answered ev resolve · line) := by
  subst hdepth
  let new : Evaluation := .start call (some (k, e.lines.length)) (e.depth + 1)
  let lines := linesOf ev call (channelOn ev resolve (e.depth + 1))
  let envelope := (ev.evaluateWith call (some (channelOn ev resolve (e.depth + 1)))).1
  have hk : k < t.length := (List.getElem?_eq_some_iff.mp he).1
  have hforward : t.step resolve (.forwarded k line) = t.modify k (·.take line) ++ [new] := by
    simp only [Cascade.step, forward, he, hcall]
    rfl
  have hnew : (t.modify k (·.take line) ++ [new])[t.length]? = some new := by simp
  obtain ⟨acts, more, hacts, hmore⟩ := h.all lines hnew rfl
  have hfold := @foldl_answered ev resolve lines new
  refine ⟨.forwarded k line :: acts ++ [.returned t.length envelope],
    ((lines.foldl (answered ev resolve) new).finish envelope) :: more, ?_, ?_⟩
  · have hlen : (t.modify k (·.take line)).length = t.length := List.length_modify ..
    have hreturned : ∀ done : Evaluation, done.envelope = none →
        done.caller = some (k, e.lines.length) →
        Cascade.step resolve (t.modify k (·.take line) ++ done :: more) (.returned t.length envelope) =
          t.modify k (answered ev resolve · line) ++ done.finish envelope :: more := by
      intro done hpending hcaller
      rw [Cascade.step, finish_eq (by simp) hpending hcaller, ← hlen, modify_append_length,
        modify_append_left (by rwa [hlen]), List.modify_modify_eq]
      congr 1
      refine modify_congr he ?_
      rw [answered, envelopeOn_eq, hcall]
      rfl
    rw [List.cons_append, List.foldl_cons, hforward, List.foldl_append, hacts, ← hlen,
      modify_append_length, hlen, List.append_assoc]
    refine hreturned _ ?_ ?_ <;> rw [hfold] <;> rfl
  · intro n hn
    rcases List.mem_cons.mp hn with rfl | hn
    · rw [hfold]
      refine ⟨rfl, rfl, rfl⟩
    · exact hmore n hn

/-- A line that no evaluation is started for is answered at once. -/
theorem leads_refuse {line : String} {fault : Fault} (he : t[k]? = some e)
    (hfault : Evaluator.prepare resolve e.depth line = .error fault) :
    Leads ev resolve t k (answered ev resolve · line) := by
  refine ⟨[.forwarded k line], [], ?_, by simp⟩
  have hforward : t.step resolve (.forwarded k line) = t.modify k (·.refuse line fault) := by
    simp only [Cascade.step, forward, he, hfault]
  rw [List.foldl_cons, List.foldl_nil, hforward, List.append_nil]
  refine modify_congr he ?_
  rw [answered, envelopeOn_eq, hfault, Evaluation.refuse]

/-- On every level each line can be answered as the evaluator does. -/
theorem answersOn (ev : Evaluator) (resolve : Call.Resolver) (depth : Nat) :
    AnswersOn ev resolve depth := by
  -- No evaluation is started below the last level, so there are ever fewer levels left.
  induction hleft : Evaluator.maxLevels - depth using Nat.strongRecOn generalizing depth with
  | ind left ih =>
    intro t k e line he hdepth
    cases hprepared : Evaluator.prepare resolve depth line with
    | error fault => exact leads_refuse he (hdepth ▸ hprepared)
    | ok call =>
      have hlt := lt_of_prepare_eq_ok hprepared
      exact (ih _ (by omega) (depth + 1) rfl).call he hdepth hprepared

/-- What happens when the evaluator runs a call may happen: after some acts the first evaluation has
returned its envelope, and all of them are done. -/
theorem exists_acts_evaluate (ev : Evaluator) (definitions : Call.Definitions) (call : Json) :
    ∃ acts first rest, after definitions.find? call acts = first :: rest ∧ first.call = call ∧
      first.envelope = some (ev.evaluate call (some definitions)) ∧
      ∀ n ∈ first :: rest, IsDone ev definitions.find? n := by
  let new : Evaluation := .start call none 0
  let lines := linesOf ev call (channelOn ev definitions.find? 0)
  let envelope := ev.evaluate call (some definitions)
  have hnew : (start call)[0]? = some new := rfl
  obtain ⟨acts, more, hacts, hmore⟩ := (answersOn ev definitions.find? 0).all lines hnew rfl
  have hfold := @foldl_answered ev definitions.find? lines new
  refine ⟨acts ++ [.returned 0 envelope],
    (lines.foldl (answered ev definitions.find?) new).finish envelope, more, ?_, ?_, rfl, ?_⟩
  · have hpending : (lines.foldl (answered ev definitions.find?) new).envelope = none := by
      rw [hfold]
      rfl
    have hcaller : (lines.foldl (answered ev definitions.find?) new).caller = none := by
      rw [hfold]
      rfl
    rw [after, List.foldl_append, hacts]
    show Cascade.finish (lines.foldl (answered ev definitions.find?) new :: more) 0 envelope = _
    simp [Cascade.finish, hpending, hcaller]
  · rw [hfold]
    rfl
  · intro n hn
    rcases List.mem_cons.mp hn with rfl | hn
    · rw [hfold]
      exact ⟨rfl, rfl, rfl⟩
    · exact hmore n hn

end Cascade

end Polyglot
