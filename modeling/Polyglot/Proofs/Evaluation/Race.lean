import Polyglot.Proofs.Codec.Traversal
import Polyglot.Race

/-!
# One answer, and one signal

Whatever the runner, the asker and the timer do and in whichever order, one of the two parties may
answer, the asker returns the envelope of that party, and by then the worker has been sent its signal,
which is sent only once (`settled`).  From every phase a return can be reached, so the asker is never stuck
(`Phase.exists_returns`), and the envelope of `Evaluator.evaluateWith` is one that a run returns
(`returns_evaluateWith`).

A race goes through the phases of `Phase`, which tell from the rights that were granted where the
envelope of the answer is.  The signal is a matter of the worker alone (`Step.signal`).
-/

namespace Polyglot

/-- A worker that has just been started is not terminated. -/
theorem Dispatch.terminated_of_startFor {site : Site} {call : Json} {worker : WorkerProcess}
    (h : startFor site call = .ok worker) : worker.terminated = false := by
  obtain ⟨⟨i, e⟩, -, h⟩ := Traversal.bind_eq_ok_iff.mp h
  dsimp only [WorkerProcess.start] at h
  split at h
  · obtain rfl := Except.ok.inj h
    rfl
  · cases h

namespace Race

variable {timeout : Nat} {r r' : Race} {act : Act}

/-! ### Phases -/

/-- Whether the runner has not claimed the right to answer, and which envelope it has got so far. -/
def Runner.IsBusy (runner : Runner) (ran : List Json) : Prop :=
  (runner = .running ∧ ran = []) ∨ ∃ envelope, runner = .ran envelope ∧ ran = [envelope]

/-- Whether the runner is done but for letting go of the worker. -/
def Runner.IsDone (runner : Runner) : Prop := runner = .leaving ∨ runner = .gone

/-- Whether the asker has not claimed the right to answer. -/
def Asker.IsEarly (asker : Asker) : Prop := asker = .waiting ∨ asker = .late

/-- Whether the asker has an envelope. -/
def Asker.Has (asker : Asker) (envelope : Json) : Prop :=
  asker = .answering envelope ∨ asker = .leaving envelope ∨ asker = .returned envelope

/-- How far a race has come in which the runner has got these envelopes and these rights to answer
were granted. -/
inductive Phase (timeout : Nat) (guard : Guard) (slot : Option Json) (runner : Runner)
    (asker : Asker) : List Json → List (Option Json) → Prop where
  /-- Nobody may answer yet. -/
  | undecided {ran : List Json} (hguard : guard.claimed = false) (hslot : slot = none)
    (hrunner : runner.IsBusy ran) (hasker : asker.IsEarly) :
    Phase timeout guard slot runner asker ran []
  /-- The runner may answer and has not. -/
  | granted (envelope : Json) (hguard : guard.claimed = true) (hslot : slot = none)
    (hrunner : runner = .granted envelope) (hasker : asker.IsEarly ∨ asker = .waitingOn) :
    Phase timeout guard slot runner asker [envelope] [some envelope]
  /-- The envelope of the runner is in the slot. -/
  | handedOver (envelope : Json) (hguard : guard.claimed = true) (hslot : slot = some envelope)
    (hrunner : runner.IsDone) (hasker : asker.IsEarly ∨ asker = .waitingOn) :
    Phase timeout guard slot runner asker [envelope] [some envelope]
  /-- The asker has the envelope of the runner. -/
  | received (envelope : Json) (hguard : guard.claimed = true) (hslot : slot = none)
    (hrunner : runner.IsDone) (hasker : asker.Has envelope) :
    Phase timeout guard slot runner asker [envelope] [some envelope]
  /-- The asker may answer. -/
  | late {ran : List Json} (hguard : guard.claimed = true) (hslot : slot = none)
    (hrunner : ∀ envelope, runner ≠ .granted envelope)
    (hasker : asker.Has (timeoutEnvelope timeout)) :
    Phase timeout guard slot runner asker ran [none]

attribute [grind =] Runner.IsBusy Runner.IsDone Asker.IsEarly Asker.Has IsAbandoned Act.ran?
  Act.grant? Guard.claim
attribute [grind intro] Phase

/-- Every act leads from phase to phase. -/
theorem Phase.step {ran : List Json} {grants : List (Option Json)}
    (h : Phase timeout r.guard r.slot r.runner r.asker ran grants) (hstep : Step timeout r act r') :
    Phase timeout r'.guard r'.slot r'.runner r'.asker (ran ++ act.ran?.toList)
      (grants ++ act.grant?.toList) := by
  cases hstep with
  | exchange | refuse | expire => simpa [Act.ran?, Act.grant?] using h
  | run envelope hr => cases h <;> grind
  | runnerClaim envelope hr =>
    cases h with
    | undecided hguard hslot hrunner hasker =>
      have hran : ran = [envelope] := by grind
      have hgranted : r.guard.claim.1 = true := by rw [Guard.claim, hguard]; rfl
      rw [hran, hgranted]
      exact .granted envelope rfl hslot rfl (.inl hasker)
    | late hguard hslot hrunner hasker =>
      have hdenied : r.guard.claim.1 = false := by rw [Guard.claim, hguard]; rfl
      rw [hdenied]
      exact .late rfl hslot nofun hasker
    | granted | handedOver | received => grind
  | handOver envelope hr =>
    cases h with
    | granted e hguard hslot hrunner hasker =>
      obtain rfl : envelope = e := by grind
      exact .handedOver envelope hguard rfl (.inl rfl) hasker
    | undecided | handedOver | received | late => grind
  | runnerLeave hr => cases h <;> grind
  | endWait ha hend => cases h <;> grind
  | askerClaim ha =>
    cases h with
    | undecided hguard hslot hrunner hasker =>
      have hgranted : r.guard.claim.1 = true := by rw [Guard.claim, hguard]; rfl
      rw [hgranted]
      exact .late rfl hslot (by grind) (.inl rfl)
    | granted e hguard hslot hrunner hasker =>
      have hdenied : r.guard.claim.1 = false := by rw [Guard.claim, hguard]; rfl
      rw [hdenied]
      exact .granted e rfl hslot hrunner (.inr rfl)
    | handedOver e hguard hslot hrunner hasker =>
      have hdenied : r.guard.claim.1 = false := by rw [Guard.claim, hguard]; rfl
      rw [hdenied]
      exact .handedOver e rfl hslot hrunner (.inr rfl)
    | received | late => grind
  | receive envelope ha hslot =>
    cases h with
    | handedOver e hguard hslot' hrunner hasker =>
      obtain rfl : envelope = e := by grind
      exact .received envelope hguard rfl hrunner (.inl rfl)
    | undecided | granted | received | late => grind
  -- A runner that may answer does not go before its envelope is in the slot.
  | giveUp ha hgone => cases h <;> grind
  | terminate envelope ha => cases h <;> grind
  | «return» envelope ha => cases h <;> grind

/-- One right to answer is granted. -/
theorem Phase.length_le_one {guard : Guard} {slot : Option Json} {runner : Runner} {asker : Asker}
    {ran : List Json} {grants : List (Option Json)}
    (h : Phase timeout guard slot runner asker ran grants) : grants.length ≤ 1 := by
  cases h <;> simp

/-- The envelope that is returned is that of the party which was granted the right to answer. -/
theorem Phase.answer {guard : Guard} {slot : Option Json} {runner : Runner} {asker : Asker}
    {ran : List Json} {grants : List (Option Json)} {envelope : Json}
    (h : Phase timeout guard slot runner asker ran grants) (hasker : asker = .returned envelope) :
    (grants = [some envelope] ∧ ran = [envelope]) ∨
      (grants = [none] ∧ envelope = timeoutEnvelope timeout) := by
  cases h <;> grind

/-! ### The signal -/

/-- Letting go of a worker sends the signal if nobody else holds it and it was not sent before. -/
theorem letGo_eq (worker : WorkerProcess) (last : Bool) :
    (letGo worker last).1 = (last && !worker.terminated) ∧
      (letGo worker last).2.terminated = (worker.terminated || last) := by
  unfold letGo WorkerProcess.terminate
  cases last <;> cases h : worker.terminated <;> simp [h]

theorem terminate_eq (worker : WorkerProcess) : worker.terminate.1 = !worker.terminated ∧
    worker.terminate.2.terminated = true := by
  simpa [letGo] using letGo_eq worker true

/-- The signal is sent only to a worker that it was not sent to before. -/
theorem Step.signal (h : Step timeout r act r') :
    r'.worker.terminated = (r.worker.terminated || act.isSignal) ∧
      (act.isSignal = true → r.worker.terminated = false) := by
  have hterminate := terminate_eq r.worker
  have hleave := letGo_eq r.worker r.asker.hasReturned
  have hreturn := letGo_eq r.worker r.runner.isGone
  cases h with
  | exchange worker hr hworker => simp [hworker, Act.isSignal]
  | refuse | terminate | runnerLeave | «return» =>
    simp only [Act.isSignal]
    grind
  | _ => simp [Act.isSignal]

/-! ### Whole runs -/

/-- The envelope that the asker has returned. -/
def Asker.returned? : Asker → Option Json
  | returned envelope => some envelope
  | _ => none

theorem Asker.returned?_eq_some {asker : Asker} {envelope : Json} :
    asker.returned? = some envelope ↔ asker = .returned envelope := by
  cases asker <;> simp [Asker.returned?]

/-- What is so after these acts. -/
structure Inv (timeout : Nat) (acts : List Act) (r : Race) : Prop where
  /-- The phase is that of the envelopes and the rights so far. -/
  phase : Phase timeout r.guard r.slot r.runner r.asker (acts.filterMap Act.ran?)
    (acts.filterMap Act.grant?)
  /-- The signal is sent once, and not if the worker is not terminated. -/
  signals : acts.countP Act.isSignal = r.worker.terminated.toNat
  /-- The asker terminates the worker before it lets go of it. -/
  stopped : ∀ envelope, r.asker = .leaving envelope ∨ r.asker = .returned envelope →
    r.worker.terminated = true
  /-- The asker returns once. -/
  returns : acts.filterMap Act.returned? = r.asker.returned?.toList

theorem inv_start {worker : WorkerProcess} (h : worker.terminated = false) :
    Inv timeout [] (start worker) where
  phase := .undecided rfl rfl (.inl ⟨rfl, rfl⟩) (.inl rfl)
  signals := by simp [start, h]
  stopped := by rintro envelope (h | h) <;> cases h
  returns := rfl

/-- What one more act adds. -/
theorem filterMap_append_singleton {α : Type} (f : Act → Option α) (acts : List Act) (act : Act) :
    (acts ++ [act]).filterMap f = acts.filterMap f ++ (f act).toList := by
  cases h : f act <;> simp [h]

theorem Inv.step {acts : List Act} (h : Inv timeout acts r) (hstep : Step timeout r act r') :
    Inv timeout (acts ++ [act]) r' := by
  obtain ⟨hworker, hfirst⟩ := hstep.signal
  refine ⟨?phase, ?signals, ?stopped, ?returns⟩
  case phase =>
    rw [filterMap_append_singleton, filterMap_append_singleton]
    exact h.phase.step hstep
  case signals =>
    rw [List.countP_append, List.countP_singleton, h.signals, hworker]
    cases hact : act.isSignal with
    | false => simp
    | true => simp [hfirst hact]
  case stopped =>
    intro envelope hasker
    cases hstep with
    | terminate e ha => exact (terminate_eq r.worker).2
    | «return» e ha => rw [hworker, h.stopped e (.inl ha), Bool.true_or]
    | runnerClaim | handOver | runnerLeave | exchange | refuse | run | expire =>
      rw [hworker, h.stopped envelope hasker, Bool.true_or]
    | endWait | receive | giveUp => grind
    | askerClaim => grind
  case returns =>
    rw [filterMap_append_singleton, h.returns]
    cases hstep with
    | «return» e ha => simp [ha, Asker.returned?, Act.returned?]
    | terminate e ha => simp [ha, Asker.returned?, Act.returned?]
    | endWait ha | giveUp ha => simp [ha, Asker.returned?, Act.returned?]
    | receive e ha => rcases ha with ha | ha <;> simp [ha, Asker.returned?, Act.returned?]
    | askerClaim ha => split <;> simp [ha, Asker.returned?, Act.returned?]
    | _ => simp [Act.returned?]

theorem Run.inv {acts more : List Act} (h : Inv timeout acts r) (hrun : Run timeout r more r') :
    Inv timeout (acts ++ more) r' := by
  induction hrun generalizing acts with
  | nil => simpa using h
  | cons step _ ih => simpa using ih (h.step step)

/-- A run goes through a state after each of its acts. -/
theorem Run.split {before after : List Act} (h : Run timeout r (before ++ after) r') :
    ∃ mid, Run timeout r before mid ∧ Run timeout mid after r' := by
  induction before generalizing r with
  | nil => exact ⟨r, .nil r, h⟩
  | cons act before ih =>
    cases h with
    | cons step rest =>
      obtain ⟨mid, hbefore, hafter⟩ := ih rest
      exact ⟨mid, .cons step hbefore, hafter⟩

/-! ### Returning -/

/-- Whether a race may go on until the asker returns an envelope. -/
def Returns (timeout : Nat) (r : Race) (envelope : Json) : Prop :=
  ∃ acts last, Run timeout r acts last ∧ last.asker = .returned envelope

variable {envelope : Json}

theorem Returns.of_step (step : Step timeout r act r') (h : Returns timeout r' envelope) :
    Returns timeout r envelope := by
  obtain ⟨acts, last, rest, hlast⟩ := h
  exact ⟨act :: acts, last, .cons step rest, hlast⟩

/-- An asker with an envelope returns it. -/
theorem returns_of_has (h : r.asker.Has envelope) : Returns timeout r envelope := by
  have hleaving : ∀ {r : Race}, r.asker = .leaving envelope → Returns timeout r envelope :=
    fun h => .of_step (.return envelope h) ⟨[], _, .nil _, rfl⟩
  rcases h with h | h | h
  · exact .of_step (.terminate envelope h) (hleaving rfl)
  · exact hleaving h
  · exact ⟨[], r, .nil r, h⟩

/-- An asker that is too late to answer takes the envelope from the slot. -/
theorem returns_of_slot (hguard : r.guard.claimed = true) (hslot : r.slot = some envelope)
    (hasker : r.asker.IsEarly ∨ r.asker = .waitingOn) : Returns timeout r envelope := by
  have htake : ∀ {r : Race}, r.slot = some envelope → r.asker = .waiting ∨ r.asker = .waitingOn →
      Returns timeout r envelope :=
    fun hslot h => .of_step (.receive envelope h hslot) (returns_of_has (.inl rfl))
  rcases hasker with (h | h) | h
  · exact htake hslot (.inl h)
  · refine .of_step (.askerClaim h) (htake hslot (.inr ?_))
    simp [Guard.claim, hguard]
  · exact htake hslot (.inr h)

/-- A runner that may answer hands its envelope over. -/
theorem returns_of_granted (hguard : r.guard.claimed = true) (hrunner : r.runner = .granted envelope)
    (hasker : r.asker.IsEarly ∨ r.asker = .waitingOn) : Returns timeout r envelope :=
  .of_step (.handOver envelope hrunner) (returns_of_slot hguard rfl hasker)

/-- While nobody has claimed the right to answer, the time may run out. -/
theorem returns_timeoutEnvelope (hguard : r.guard.claimed = false) (hasker : r.asker.IsEarly) :
    Returns timeout r (timeoutEnvelope timeout) := by
  have hclaim : ∀ {r : Race}, r.guard.claimed = false → r.asker = .late →
      Returns timeout r (timeoutEnvelope timeout) := by
    intro r hguard h
    refine .of_step (.askerClaim h) (returns_of_has (.inl ?_))
    simp [Guard.claim, hguard]
  rcases hasker with h | h
  · exact .of_step .expire (.of_step (.endWait h (.inl rfl)) (hclaim hguard rfl))
  · exact hclaim hguard h

/-- From every phase the asker may come to return. -/
theorem Phase.exists_returns {ran : List Json} {grants : List (Option Json)}
    (h : Phase timeout r.guard r.slot r.runner r.asker ran grants) :
    ∃ envelope, Returns timeout r envelope := by
  cases h with
  | undecided hguard _ _ hasker => exact ⟨_, returns_timeoutEnvelope hguard hasker⟩
  | granted e hguard _ hrunner hasker => exact ⟨e, returns_of_granted hguard hrunner hasker⟩
  | handedOver e hguard hslot _ hasker => exact ⟨e, returns_of_slot hguard hslot hasker⟩
  | received e _ _ _ hasker => exact ⟨e, returns_of_has hasker⟩
  | late _ _ _ hasker => exact ⟨_, returns_of_has hasker⟩

/-- What an evaluation with a worker leads to is what a run may return. -/
theorem returns_evaluateWith {e : Evaluator} {call : Json} {channel : Option Channel}
    {worker : WorkerProcess} (h : Dispatch.startFor e.site call = .ok worker) :
    Returns e.timeout (start worker) (e.evaluateWith call channel).1 := by
  simp only [Evaluator.evaluateWith, h, Evaluator.inTime]
  have hlate : Returns e.timeout (start worker) (timeoutEnvelope e.timeout) :=
    returns_timeoutEnvelope rfl (.inl rfl)
  split
  case h_1 envelope _ =>
    split
    · refine .of_step (.run envelope rfl) (.of_step (.runnerClaim envelope rfl) ?_)
      exact returns_of_granted rfl rfl (.inl (.inl rfl))
    · exact hlate
  case h_2 => exact hlate

/-! ### The answer -/

/-- In every run, at most one party is granted the right to answer, and when the asker returns, which it
does at most once, it is with the envelope of that party and after the only signal to the worker. The
asker can always come to return. -/
theorem settled {site : Site} {call : Json} {worker : WorkerProcess} {timeout : Nat}
    {acts : List Act} {r : Race} (hstart : Dispatch.startFor site call = .ok worker)
    (h : Run timeout (start worker) acts r) :
    (acts.filterMap Act.grant?).length ≤ 1 ∧
      (∀ before envelope signalled later, acts = before ++ .returned envelope signalled :: later →
        acts.filterMap Act.returned? = [envelope] ∧
        ((acts.filterMap Act.grant? = [some envelope] ∧ acts.filterMap Act.ran? = [envelope]) ∨
          (acts.filterMap Act.grant? = [none] ∧ envelope = timeoutEnvelope timeout)) ∧
        before.countP Act.isSignal = 1 ∧ signalled = false ∧ later.countP Act.isSignal = 0) ∧
      ∃ envelope, Returns timeout r envelope := by
  have hworker : worker.terminated = false := Dispatch.terminated_of_startFor hstart
  have hinv : Inv timeout acts r := Run.inv (inv_start hworker) h
  refine ⟨?one, ?returned, hinv.phase.exists_returns⟩
  case one => exact hinv.phase.length_le_one
  case returned =>
    intro before envelope signalled later hacts
    have hmem : envelope ∈ acts.filterMap Act.returned? := by
      simp [hacts, List.filterMap_append, Act.returned?]
    rw [hinv.returns, Option.mem_toList] at hmem
    refine ⟨by rw [hinv.returns, hmem, Option.toList_some],
      hinv.phase.answer (Asker.returned?_eq_some.mp hmem), ?_⟩
    -- When the asker comes to return, it has terminated the worker.
    obtain ⟨mid, hbefore, hafter⟩ := (hacts ▸ h).split
    have hmid : Inv timeout before mid := Run.inv (inv_start hworker) hbefore
    have hmidAsker : mid.asker = .leaving envelope := by
      cases hafter with
      | cons step _ =>
        cases step
        assumption
    have hone : before.countP Act.isSignal = 1 := by
      rw [hmid.signals, hmid.stopped envelope (.inl hmidAsker)]
      rfl
    have hall : acts.countP Act.isSignal ≤ 1 := hinv.signals ▸ Bool.toNat_le r.worker.terminated
    rw [hacts, List.countP_append, List.countP_cons, hone] at hall
    refine ⟨hone, ?_, by omega⟩
    cases signalled with
    | false => rfl
    | true =>
      simp only [Act.isSignal, if_true] at hall
      omega

/-- What happens when a call of the worker is refused and the time runs out between the claim of the
runner and its answer. -/
def lateAnswer : List Act :=
  let envelope := Envelope.ofFault Exchange.notReentrant
  [.refused true, .ran envelope, .runnerClaimed envelope true, .expired, .waitEnded,
    .askerClaimed false, .handedOver, .received, .terminated false, .returned envelope false,
    .runnerLeft false]

/-- A runner that may answer is waited for. -/
theorem settled_lateAnswer :
    ∃ site call worker r, Dispatch.startFor site call = .ok worker ∧
      Run 1 (start worker) lateAnswer r ∧
      lateAnswer.filterMap Act.returned? = [Envelope.ofFault Exchange.notReentrant] ∧
      lateAnswer.countP Act.isSignal = 1 := by
  let site : Site :=
    { files := ⟨[], [(["bin", "w"], .program "zscript-worker")]⟩
      programs := fun _ _ _ => .done 0
      registry := ⟨[("l", ⟨"w", [], []⟩)]⟩
      measurement := ⟨"", "", ⟨0, 0⟩, ⟨0, 0⟩, ""⟩ }
  let call : Json :=
    .obj [("Z7K1", .obj [("Z8K4", .arr [.obj [("Z14K3", .obj [("Z16K1", .str "l")])]])])]
  have hok : (Dispatch.startFor site call).toBool = true := by decide
  cases hstart : Dispatch.startFor site call with
  | error fault => rw [hstart] at hok; cases hok
  | ok worker =>
    have hworker : worker.terminated = false := Dispatch.terminated_of_startFor hstart
    obtain ⟨r, hrun⟩ : ∃ r, Run 1 (start worker) lateAnswer r := by
      obtain ⟨pid, language, session, inbox, inputOpen, listening, output, diagnostics, _⟩ := worker
      subst hworker
      exact ⟨_, .cons (.refuse rfl) <| .cons (.run _ rfl) <| .cons (.runnerClaim _ rfl) <|
        .cons .expire <| .cons (.endWait rfl (.inl rfl)) <| .cons (.askerClaim rfl) <|
        .cons (.handOver _ rfl) <| .cons (.receive _ (.inr rfl) rfl) <| .cons (.terminate _ rfl) <|
        .cons (.return _ rfl) <| .cons (.runnerLeave rfl) <| .nil _⟩
    obtain ⟨-, hreturned, -⟩ := settled hstart hrun
    obtain ⟨hone, -, hbefore, -, hlater⟩ :=
      hreturned (lateAnswer.take 9) (Envelope.ofFault Exchange.notReentrant) false
        (lateAnswer.drop 10) rfl
    refine ⟨site, call, worker, r, hstart, hrun, hone, ?_⟩
    calc lateAnswer.countP Act.isSignal
        = (lateAnswer.take 9).countP Act.isSignal + (lateAnswer.drop 10).countP Act.isSignal := rfl
      _ = 1 := by rw [hbefore, hlater]

end Race

end Polyglot
