import Mathlib.Data.List.Basic
import Polyglot.Cascade
import Polyglot.Proofs.Json.OneLine

/-!
# One reply for each call, on a bounded number of levels

Whatever the workers do, each line that is handed to a channel has one reply on that channel, at once if
no evaluation is started for it and otherwise when the only one that is started returns, and every
evaluation is at most `Evaluator.maxLevels` levels below the first (`replied_once`).

That a channel knows its level is a matter of the places of evaluations in the tree of calls (`Placed`),
which no act changes.  The rest is one statement about each channel and each number of a line (`Settled`);
an act concerns one line of one channel and leaves all others as they are (`Settled.congr`).
-/

namespace Polyglot

namespace Call

variable {resolve : Resolver}

theorem target_eq_ok_iff {target function : Json} : Call.target resolve target = .ok function ↔
    if isInline target then function = target
    else ∃ id, textOf? target = some id ∧ resolve id = some function := by
  unfold Call.target
  split
  case isTrue => exact ⟨fun h => (Except.ok.inj h).symm, fun h => congrArg Except.ok h.symm⟩
  case isFalse =>
    cases textOf? target with
    | none => simp
    | some id => cases hid : resolve id <;> simp [hid]

theorem expandWith_eq_ok_iff {request call : Json} : expandWith resolve request = .ok call ↔
    ∃ (fields : Json.Fields Json) (target function : Json),
      request = .obj fields ∧ fields.find? "Z7K1" = some target ∧
      Call.target resolve target = .ok function ∧
      call = .obj ((fields.insert "Z1K1" (Wire.reference TypeId.call)).insert "Z7K1" function) := by
  cases request with
  | obj fields =>
    rw [expandWith]
    cases hfind : Json.Fields.find? fields "Z7K1" with
    | none => simp [hfind]
    | some target => cases htarget : Call.target resolve target <;> simp [hfind, htarget, eq_comm]
  | _ => simp [expandWith]

end Call

namespace Cascade

/-- The numbers of the evaluations that were started for a line. -/
def startedFor (t : Cascade) (k i : Nat) : List Nat := (t.map (·.caller)).idxsOf (some (k, i))

/-- How many levels an evaluation is below the first one. -/
inductive Level (t : Cascade) : (evaluation level : Nat) → Prop where
  /-- The first one. -/
  | first : Level t 0 0
  /-- That of a call which a worker makes. -/
  | called {j k i level : Nat} {e : Evaluation} (h : t[j]? = some e) (hcaller : e.caller = some (k, i))
    (hlevel : Level t k level) : Level t j (level + 1)

/-- Whether an evaluation is the first one, or was started for an earlier one on the level above. -/
def Placed (t : Cascade) (j : Nat) (n : Evaluation) : Prop :=
  (j = 0 ∧ n.caller = none ∧ n.depth = 0) ∨
    ∃ k i e, n.caller = some (k, i) ∧ k < j ∧ t[k]? = some e ∧ n.depth = e.depth + 1 ∧
      n.depth ≤ Evaluator.maxLevels

/-- What has come of the line with a number on the channel of an evaluation: nothing if there is no such
line, else a reply that says why no evaluation was started for it, or one evaluation and the reply when
this has returned. -/
def Replied (resolve : Call.Resolver) (t : Cascade) (k : Nat) (e : Evaluation) (i : Nat) : Prop :=
  match e.lines[i]?.map (Evaluator.prepare resolve e.depth) with
  | none => t.startedFor k i = [] ∧ e.repliesTo i = []
  | some (.error fault) =>
    t.startedFor k i = [] ∧ e.repliesTo i = [(Envelope.ofFault fault).render]
  | some (.ok call) => ∃ j n, t.startedFor k i = [j] ∧ t[j]? = some n ∧ n.call = call ∧
    e.repliesTo i = (n.envelope.map Json.render).toList

/-- What is so after all acts. -/
structure Inv (resolve : Call.Resolver) (t : Cascade) : Prop where
  /-- There is a first evaluation. -/
  nonempty : t ≠ []
  /-- Every evaluation has its place. -/
  placed : ∀ j n, t[j]? = some n → t.Placed j n
  /-- Every line has its reply. -/
  replied : ∀ k e, t[k]? = some e → ∀ i, Replied resolve t k e i

variable {resolve : Call.Resolver} {t t' : Cascade} {e e' n : Evaluation} {j k i : Nat}
  {f : Evaluation → Evaluation}

/-! ### Replies -/

theorem repliesTo_take (line : String) : (e.take line).repliesTo i = e.repliesTo i := rfl

theorem repliesTo_reply (envelope : Json) :
    (e.reply j envelope).repliesTo i =
      e.repliesTo i ++ if j = i then [envelope.render] else [] := by
  by_cases h : j = i <;> simp [Evaluation.repliesTo, Evaluation.reply, List.filter_append, h]

/-! ### Changing one evaluation -/

theorem getElem?_modify_of (h : t[k]? = some e) :
    (t.modify j f)[k]? = some (if j = k then f e else e) := by
  rw [List.getElem?_modify, h]
  rfl

theorem exists_of_getElem?_modify (h : (t.modify j f)[k]? = some e') :
    ∃ e, t[k]? = some e ∧ e' = if j = k then f e else e := by
  cases he : t[k]? with
  | none => rw [List.getElem?_modify, he] at h; cases h
  | some e =>
    rw [getElem?_modify_of he] at h
    exact ⟨e, rfl, (Option.some.inj h).symm⟩

/-! ### Who was started for what -/

theorem mem_startedFor : j ∈ t.startedFor k i ↔ ∃ n, t[j]? = some n ∧ n.caller = some (k, i) := by
  simp [startedFor, List.getElem?_eq_some_iff]

theorem startedFor_modify (hf : ∀ e, (f e).caller = e.caller) :
    startedFor (t.modify j f) k i = t.startedFor k i := by
  have hcallers : (t.modify j f).map (·.caller) = t.map (·.caller) := by
    apply List.ext_getElem?
    intro n
    simp only [List.getElem?_map, List.getElem?_modify]
    cases t[n]? <;> simp [apply_ite, hf]
  rw [startedFor, hcallers, startedFor]

theorem startedFor_append :
    startedFor (t ++ [n]) k i =
      t.startedFor k i ++ if n.caller = some (k, i) then [t.length] else [] := by
  simp [startedFor, List.idxsOf, List.findIdxs_append]

/-- What has come of a line stays so when neither this nor the evaluation for it changes. -/
theorem Replied.congr (h : Replied resolve t k e i) (hline : e'.lines[i]? = e.lines[i]?)
    (hdepth : e'.depth = e.depth) (hreplies : e'.repliesTo i = e.repliesTo i)
    (hstarted : t'.startedFor k i = t.startedFor k i)
    (hcalled : ∀ (j : Nat) (n : Evaluation), t[j]? = some n → n.caller = some (k, i) →
      ∃ n', t'[j]? = some n' ∧ n'.call = n.call ∧ n'.envelope = n.envelope) :
    Replied resolve t' k e' i := by
  unfold Replied at h ⊢
  rw [hline, hdepth, hreplies, hstarted]
  split at h
  · exact h
  · exact h
  · obtain ⟨j, n, hj, hn, hcall, hreply⟩ := h
    obtain ⟨m, hm, hcaller⟩ := mem_startedFor.mp (hj ▸ List.mem_singleton_self j)
    obtain rfl : n = m := Option.some.inj (hn ▸ hm)
    obtain ⟨n', hn', hcall', henvelope⟩ := hcalled j n hn hcaller
    exact ⟨j, n', hj, hn', hcall'.trans hcall, henvelope ▸ hreply⟩

/-- An evaluation keeps its place. -/
theorem Placed.congr (h : Placed t j n) (hcaller : e'.caller = n.caller) (hdepth : e'.depth = n.depth)
    (hkept : ∀ (k : Nat) (e : Evaluation), t[k]? = some e → ∃ e', t'[k]? = some e' ∧ e'.depth = e.depth) :
    Placed t' j e' := by
  rcases h with ⟨hj, hn, hd⟩ | ⟨k, i, e, hn, hlt, he, hd, hle⟩
  · exact .inl ⟨hj, hcaller.trans hn, hdepth.trans hd⟩
  · obtain ⟨m, hm, hmd⟩ := hkept k e he
    exact .inr ⟨k, i, m, hcaller.trans hn, hlt, hm, by omega, by omega⟩

/-- The evaluations keep their places when one of them changes. -/
theorem placed_modify (h : ∀ j n, t[j]? = some n → t.Placed j n)
    (hf : ∀ e, (f e).caller = e.caller ∧ (f e).depth = e.depth) {j : Nat} {n : Evaluation}
    (hn : (t.modify k f)[j]? = some n) : Placed (t.modify k f) j n := by
  obtain ⟨m, hm, rfl⟩ := exists_of_getElem?_modify hn
  refine (h j m hm).congr ?_ ?_ fun k e he => ⟨_, getElem?_modify_of he, ?_⟩
  · rw [apply_ite Evaluation.caller, (hf m).1, ite_self]
  · rw [apply_ite Evaluation.depth, (hf m).2, ite_self]
  · rw [apply_ite Evaluation.depth, (hf e).2, ite_self]

/-- Nothing was started for an evaluation that was not. -/
theorem Inv.startedFor_eq_nil (h : Inv resolve t) (hk : t.length ≤ k) : t.startedFor k i = [] := by
  refine List.eq_nil_iff_forall_not_mem.mpr fun j hj => ?_
  obtain ⟨n, hn, hcaller⟩ := mem_startedFor.mp hj
  rcases h.placed j n hn with ⟨-, hnone, -⟩ | ⟨k', i', e, hsome, -, he, -, -⟩
  · cases hnone ▸ hcaller
  · obtain ⟨rfl, rfl⟩ := Prod.mk.inj (Option.some.inj (hcaller.symm.trans hsome))
    rw [List.getElem?_eq_none hk] at he
    cases he

theorem inv_start (call : Json) : Inv resolve (start call) := by
  have hfirst : ∀ {j : Nat} {n : Evaluation}, (start call)[j]? = some n →
      j = 0 ∧ n = .start call none 0 := by
    intro j n h
    rw [start, List.getElem?_singleton] at h
    split at h
    · exact ⟨by assumption, (Option.some.inj h).symm⟩
    · cases h
  refine ⟨List.cons_ne_nil _ _, ?placed, ?replied⟩
  case placed =>
    intro j n h
    obtain ⟨rfl, rfl⟩ := hfirst h
    exact .inl ⟨rfl, rfl, rfl⟩
  case replied =>
    intro k e h i
    obtain ⟨rfl, rfl⟩ := hfirst h
    exact ⟨rfl, rfl⟩

/-! ### Acts -/

/-- Taking a line changes no other. -/
theorem getElem?_lines_take {line : String} (h : i ≠ e.lines.length) :
    (e.take line).lines[i]? = e.lines[i]? := by
  rw [Evaluation.take, List.getElem?_append]
  split
  · rfl
  · rw [List.getElem?_eq_none (by simp; omega), List.getElem?_eq_none (by omega)]

theorem getElem?_lines_take_self {line : String} :
    (e.take line).lines[e.lines.length]? = some line := by
  simp [Evaluation.take]

/-- Nothing has come of the next line yet. -/
theorem Replied.next (h : Replied resolve t k e e.lines.length) :
    t.startedFor k e.lines.length = [] ∧ e.repliesTo e.lines.length = [] := by
  simpa [Replied] using h

/-- What has come of a line stays so when only other lines of the channels are concerned. -/
theorem Replied.modify (h : Replied resolve t k e i) (hf : ∀ e, (f e).caller = e.caller ∧
      (f e).depth = e.depth ∧ (f e).call = e.call ∧ (f e).envelope = e.envelope)
    (hother : j = k → (f e).lines[i]? = e.lines[i]? ∧ (f e).repliesTo i = e.repliesTo i) :
    Replied resolve (t.modify j f) k (if j = k then f e else e) i := by
  have hcalled : ∀ (m : Nat) (n : Evaluation), t[m]? = some n → n.caller = some (k, i) →
      ∃ n', (t.modify j f)[m]? = some n' ∧ n'.call = n.call ∧ n'.envelope = n.envelope := by
    intro m n hn _
    refine ⟨_, getElem?_modify_of hn, ?_, ?_⟩ <;> split <;> simp [hf]
  have hstarted : startedFor (t.modify j f) k i = t.startedFor k i :=
    startedFor_modify fun e => (hf e).1
  split
  case isTrue hk => exact h.congr (hother hk).1 (hf e).2.1 (hother hk).2 hstarted hcalled
  case isFalse => exact h.congr rfl rfl rfl hstarted hcalled

/-- A line that no evaluation is started for gets its reply at once. -/
theorem Inv.refuse (h : Inv resolve t) {line : String} {fault : Fault} (he : t[k]? = some e)
    (hfault : Evaluator.prepare resolve e.depth line = .error fault) :
    Inv resolve (t.modify k (·.refuse line fault)) := by
  refine ⟨by simpa using h.nonempty, fun j n hn => ?_, fun k' e' he' i => ?_⟩
  · exact placed_modify (f := (·.refuse line fault)) h.placed (fun _ => ⟨rfl, rfl⟩) hn
  obtain ⟨e₀, he₀, rfl⟩ := exists_of_getElem?_modify he'
  by_cases hki : k = k' ∧ e.lines.length = i
  · obtain ⟨rfl, rfl⟩ := hki
    obtain rfl : e = e₀ := Option.some.inj (he ▸ he₀)
    obtain ⟨hnone, hreplies⟩ := (h.replied k e he _).next
    rw [if_pos rfl, Replied, startedFor_modify (f := (·.refuse line fault)) fun _ => rfl]
    have hlines : (e.refuse line fault).lines[e.lines.length]? = some line :=
      getElem?_lines_take_self
    have hdepth : (e.refuse line fault).depth = e.depth := rfl
    simp only [hlines, hdepth, Option.map_some, hfault]
    refine ⟨hnone, ?_⟩
    rw [Evaluation.refuse, repliesTo_reply, if_pos rfl, repliesTo_take, hreplies, List.nil_append]
  · refine (h.replied k' e₀ he₀ i).modify (fun _ => ⟨rfl, rfl, rfl, rfl⟩) fun hk => ?_
    subst hk
    obtain rfl : e = e₀ := Option.some.inj (he ▸ he₀)
    have hi : e.lines.length ≠ i := fun hi => hki ⟨rfl, hi⟩
    refine ⟨getElem?_lines_take hi.symm, ?_⟩
    rw [Evaluation.refuse, repliesTo_reply, if_neg hi, repliesTo_take, List.append_nil]

/-- What is in a list is in the longer one, or is what was added. -/
theorem exists_of_getElem?_append (h : (t ++ [n])[j]? = some e) :
    t[j]? = some e ∨ (j = t.length ∧ e = n) := by
  rw [List.getElem?_append] at h
  split at h
  · exact .inl h
  · rw [List.getElem?_singleton] at h
    split at h
    · exact .inr ⟨by omega, (Option.some.inj h).symm⟩
    · cases h

/-- A call is prepared on a channel above the last level. -/
theorem lt_of_prepare_eq_ok {line : String} {depth : Nat} {call : Json}
    (h : Evaluator.prepare resolve depth line = .ok call) : depth < Evaluator.maxLevels := by
  unfold Evaluator.prepare at h
  split at h
  · cases h
  · omega

/-- A line that an evaluation is started for gets none before this returns. -/
theorem Inv.call (h : Inv resolve t) {line : String} {call : Json} (he : t[k]? = some e)
    (hcall : Evaluator.prepare resolve e.depth line = .ok call) :
    Inv resolve (t.modify k (·.take line) ++
      [.start call (some (k, e.lines.length)) (e.depth + 1)]) := by
  have hk : k < t.length := (List.getElem?_eq_some_iff.mp he).1
  have hkept : ∀ (j : Nat) (n new : Evaluation), (t.modify k (·.take line))[j]? = some n →
      (t.modify k (·.take line) ++ [new])[j]? = some n := fun j n new hn => by
    rw [List.getElem?_append_left (List.getElem?_eq_some_iff.mp hn).1, hn]
  have hstarted : ∀ k' i, startedFor (t.modify k (·.take line) ++
      [.start call (some (k, e.lines.length)) (e.depth + 1)]) k' i =
        t.startedFor k' i ++ if k = k' ∧ e.lines.length = i then [t.length] else [] := by
    intro k' i
    rw [startedFor_append, startedFor_modify (f := (·.take line)) fun _ => rfl, List.length_modify]
    simp [Evaluation.start]
  refine ⟨by simp, ?placed, ?replied⟩
  case placed =>
    intro j n hn
    rcases exists_of_getElem?_append hn with hn | ⟨hj, rfl⟩
    · have hold := placed_modify (f := (·.take line)) h.placed (fun _ => ⟨rfl, rfl⟩) hn
      exact hold.congr rfl rfl fun k e he => ⟨e, hkept k e _ he, rfl⟩
    · rw [List.length_modify] at hj
      refine .inr ⟨k, e.lines.length, e.take line, rfl, hj ▸ hk, hkept k _ _ ?_, rfl,
        lt_of_prepare_eq_ok hcall⟩
      rw [getElem?_modify_of he, if_pos rfl]
  case replied =>
    intro k' e' he' i
    rcases exists_of_getElem?_append he' with he' | ⟨hk', rfl⟩
    · obtain ⟨e₀, he₀, rfl⟩ := exists_of_getElem?_modify he'
      by_cases hki : k = k' ∧ e.lines.length = i
      · obtain ⟨rfl, rfl⟩ := hki
        obtain rfl : e = e₀ := Option.some.inj (he ▸ he₀)
        obtain ⟨hnone, hreplies⟩ := (h.replied k e he _).next
        rw [if_pos rfl, Replied, hstarted, hnone, if_pos ⟨rfl, rfl⟩]
        have hdepth : (e.take line).depth = e.depth := rfl
        simp only [getElem?_lines_take_self, hdepth, Option.map_some, hcall]
        exact ⟨t.length, .start call (some (k, e.lines.length)) (e.depth + 1), rfl, by simp, rfl,
          hreplies⟩
      · have hold := (h.replied k' e₀ he₀ i).modify (j := k) (f := (·.take line))
          (fun _ => ⟨rfl, rfl, rfl, rfl⟩) fun hk => ?_
        · refine hold.congr rfl rfl rfl ?_ fun j n hn _ => ⟨n, hkept j n _ hn, rfl, rfl⟩
          rw [hstarted, if_neg hki, List.append_nil, startedFor_modify (f := (·.take line)) fun _ => rfl]
        · subst hk
          obtain rfl : e = e₀ := Option.some.inj (he ▸ he₀)
          exact ⟨getElem?_lines_take fun hi => hki ⟨rfl, hi.symm⟩, rfl⟩
    · -- Nothing has been handed to the channel of the new evaluation.
      rw [List.length_modify] at hk'
      refine ⟨?_, rfl⟩
      rw [hstarted, h.startedFor_eq_nil (Nat.le_of_eq hk'.symm), if_neg (by omega)]
      rfl

/-- An evaluation is the only one for its line. -/
theorem Replied.of_mem (h : Replied resolve t k e i) (hj : j ∈ t.startedFor k i) :
    ∃ line n, e.lines[i]? = some line ∧ Evaluator.prepare resolve e.depth line = .ok n.call ∧
      t.startedFor k i = [j] ∧ t[j]? = some n ∧
      e.repliesTo i = (n.envelope.map Json.render).toList := by
  unfold Replied at h
  split at h
  case h_1 => simp [h.1] at hj
  case h_2 => simp [h.1] at hj
  case h_3 hprepared =>
    obtain ⟨line, hline, hcall⟩ := Option.map_eq_some_iff.mp hprepared
    obtain ⟨m, n, hm, hn, rfl, hreply⟩ := h
    obtain rfl : j = m := by simpa [hm] using hj
    exact ⟨line, n, hline, hcall, hm, hn, hreply⟩

/-- When an evaluation returns, nothing else comes of any line than that which it was started for. -/
theorem Replied.finish (h : Replied resolve t k e i) (hn : t[j]? = some n)
    (hne : n.caller ≠ some (k, i)) (envelope : Json) :
    Replied resolve (t.modify j (·.finish envelope)) k (if j = k then e.finish envelope else e) i := by
  have hstarted := startedFor_modify (t := t) (j := j) (k := k) (i := i) (f := (·.finish envelope))
    fun _ => rfl
  refine h.congr ?_ ?_ ?_ hstarted fun m n' hn' hcaller => ?_
  · split <;> rfl
  · split <;> rfl
  · split <;> rfl
  · have hm : j ≠ m := by
      rintro rfl
      obtain rfl : n = n' := Option.some.inj (hn ▸ hn')
      exact hne hcaller
    exact ⟨n', by rw [getElem?_modify_of hn', if_neg hm], rfl, rfl⟩

/-- When an evaluation returns, its envelope is the reply to the line which it was started for. -/
theorem Replied.reply (h : Replied resolve t k e i) (hjk : j ≠ k) (hn : t[j]? = some n)
    (hcaller : n.caller = some (k, i)) (hpending : n.envelope = none) (envelope : Json) :
    Replied resolve ((t.modify j (·.finish envelope)).modify k (·.reply i envelope)) k
      (e.reply i envelope) i := by
  obtain ⟨line, m, hline, hcall, hj, hm, hreply⟩ := h.of_mem (mem_startedFor.mpr ⟨n, hn, hcaller⟩)
  obtain rfl : n = m := Option.some.inj (hn ▸ hm)
  have hlines : (e.reply i envelope).lines[i]? = some line := hline
  have hdepth : (e.reply i envelope).depth = e.depth := rfl
  rw [Replied, startedFor_modify (f := (·.reply i envelope)) fun _ => rfl,
    startedFor_modify (f := (·.finish envelope)) fun _ => rfl]
  simp only [hlines, hdepth, Option.map_some, hcall]
  refine ⟨j, n.finish envelope, hj, ?_, rfl, ?_⟩
  · rw [getElem?_modify_of (getElem?_modify_of hn), if_pos rfl, if_neg hjk.symm]
  · rw [repliesTo_reply, if_pos rfl, hreply, hpending]
    rfl

/-- An evaluation that returns keeps its place and that of its caller. -/
theorem Inv.finish (h : Inv resolve t) (j : Nat) (envelope : Json) :
    Inv resolve (t.finish j envelope) := by
  unfold Cascade.finish
  split
  case h_1 => exact h
  case h_2 n hn =>
    split
    case isTrue => exact h
    case isFalse hpending =>
      have hpending : n.envelope = none := by simpa using hpending
      have hplaced : ∀ m n', (t.modify j (·.finish envelope))[m]? = some n' →
          Placed (t.modify j (·.finish envelope)) m n' := fun m n' =>
        placed_modify (f := (·.finish envelope)) h.placed fun _ => ⟨rfl, rfl⟩
      rcases h.placed j n hn with ⟨-, hcaller, -⟩ | ⟨k, i, e, hcaller, hlt, he, -, -⟩
      · simp only [hcaller]
        refine ⟨by simpa using h.nonempty, hplaced, fun k e he i => ?_⟩
        obtain ⟨e₀, he₀, rfl⟩ := exists_of_getElem?_modify he
        exact (h.replied k e₀ he₀ i).finish hn (by simp [hcaller]) envelope
      · simp only [hcaller]
        refine ⟨by simpa using h.nonempty, fun m n' hn' => ?_, fun k' e' he' i' => ?_⟩
        · exact placed_modify (f := (·.reply i envelope)) hplaced (fun _ => ⟨rfl, rfl⟩) hn'
        · obtain ⟨e₁, he₁, rfl⟩ := exists_of_getElem?_modify he'
          obtain ⟨e₀, he₀, rfl⟩ := exists_of_getElem?_modify he₁
          by_cases hki : k = k' ∧ i = i'
          · obtain ⟨rfl, rfl⟩ := hki
            have hjk : j ≠ k := by omega
            rw [if_pos rfl, if_neg hjk]
            exact (h.replied k e₀ he₀ i).reply hjk hn hcaller hpending envelope
          · have hne : n.caller ≠ some (k', i') := by
              rw [hcaller]
              exact fun heq => hki (Prod.mk.inj (Option.some.inj heq))
            refine ((h.replied k' e₀ he₀ i').finish hn hne envelope).modify
              (f := (·.reply i envelope)) (fun _ => ⟨rfl, rfl, rfl, rfl⟩) fun hk => ⟨rfl, ?_⟩
            rw [repliesTo_reply, if_neg fun hi => hki ⟨hk, hi⟩, List.append_nil]

/-- Every act keeps what is so. -/
theorem Inv.step (h : Inv resolve t) (act : Act) : Inv resolve (t.step resolve act) := by
  cases act with
  | returned j envelope => exact h.finish j envelope
  | forwarded k line =>
    rw [Cascade.step, forward]
    split
    case h_1 => exact h
    case h_2 e he =>
      split
      case h_1 fault hfault => exact h.refuse he hfault
      case h_2 call hcall => exact h.call he hcall

theorem inv_after (resolve : Call.Resolver) (call : Json) (acts : List Act) :
    Inv resolve (after resolve call acts) := by
  have hfoldl : ∀ (acts : List Act) (t : Cascade), Inv resolve t →
      Inv resolve (acts.foldl (Cascade.step resolve) t) := by
    intro acts
    induction acts with
    | nil => exact fun t h => h
    | cons act acts ih => exact fun t h => ih _ (h.step act)
  exact hfoldl acts _ (inv_start call)

/-! ### Levels -/

/-- Every evaluation has a level, which is the one that its channel knows. -/
theorem Inv.level (h : Inv resolve t) : ∀ {j : Nat} {n : Evaluation}, t[j]? = some n →
    Level t j n.depth := by
  intro j
  induction j using Nat.strongRecOn with
  | ind j ih =>
    intro n hn
    rcases h.placed j n hn with ⟨rfl, -, hdepth⟩ | ⟨k, i, e, hcaller, hlt, he, hdepth, -⟩
    · rw [hdepth]
      exact .first
    · rw [hdepth]
      exact .called hn hcaller (ih k hlt he)

/-- An evaluation is on no other level than the one that its channel knows. -/
theorem Inv.eq_depth (h : Inv resolve t) {level : Nat} (hlevel : Level t j level) :
    ∀ {n : Evaluation}, t[j]? = some n → level = n.depth := by
  induction hlevel with
  | first =>
    intro n hn
    rcases h.placed 0 n hn with ⟨-, -, hdepth⟩ | ⟨k, i, e, -, hlt, -, -, -⟩
    · exact hdepth.symm
    · omega
  | called hm hcaller hlevel ih =>
    rename_i j k i level m
    intro n hn
    obtain rfl : m = n := Option.some.inj (hm ▸ hn)
    rcases h.placed j m hm with ⟨-, hnone, -⟩ | ⟨k', i', e, hsome, -, he, hdepth, -⟩
    · cases hnone ▸ hcaller
    · obtain ⟨rfl, rfl⟩ := Prod.mk.inj (Option.some.inj (hcaller.symm.trans hsome))
      rw [ih he, hdepth]

/-! ### Lines that workers write -/

/-- Which lines an evaluation is started for: on a channel that is not on the last level, those with an
object that has a function, given with the call or found by its identifier. -/
theorem prepare_eq_ok_iff {depth : Nat} {line : String} {call : Json} :
    Evaluator.prepare resolve depth line = .ok call ↔ depth < Evaluator.maxLevels ∧
      ∃ (fields : Json.Fields Json) (target function : Json),
        Json.read? (Evaluator.callText line) = some (.obj fields) ∧
        fields.find? "Z7K1" = some target ∧
        (if Call.isInline target then function = target
          else ∃ id, Call.textOf? target = some id ∧ resolve id = some function) ∧
        call = .obj ((fields.insert "Z1K1" (Wire.reference TypeId.call)).insert "Z7K1" function) := by
  unfold Evaluator.prepare Evaluator.callOfLine
  split
  case isTrue hdeep => simp [Nat.not_lt.mpr hdeep]
  case isFalse hdeep =>
    have hlt : depth < Evaluator.maxLevels := by omega
    rw [and_iff_right hlt]
    cases hread : Json.read? (Evaluator.callText line) with
    | none => simp
    | some request =>
      simp only [Call.expandWith_eq_ok_iff, Option.some.injEq, Call.target_eq_ok_iff]

/-- The text of the object on the line of a call. -/
theorem callText_callLine (fields : Json.Fields Json) :
    Evaluator.callText (Worker.callLine (.obj fields)) = (Json.obj fields).render := by
  obtain ⟨cs, hcs⟩ := Json.exists_toChars_obj fields
  have hline : (Worker.callLine (.obj fields)).toList =
      'c' :: ('a' :: 'l' :: 'l' :: ' ' :: '\x7b' :: cs ++ ['\x7d']) := by
    rw [Worker.callLine, String.toList_append, Json.render, String.toList_ofList, hcs]
    rfl
  have htrim : Text.trimChars ([] ++ ((Worker.callLine (.obj fields)).toList ++ [])) =
      (Worker.callLine (.obj fields)).toList := by
    rw [hline]
    exact Text.trimChars_append rfl rfl (by decide) (by decide) _
  have hdrop : Evaluator.withoutStart ['c', 'a', 'l', 'l']
      (Text.trim (Worker.callLine (.obj fields))).toList =
        [' '] ++ ((Json.obj fields).toChars ++ []) := by
    rw [List.nil_append, List.append_nil] at htrim
    rw [Text.trim, String.toList_ofList, htrim, hline, hcs]
    simp [Evaluator.withoutStart]
  rw [Evaluator.callText, hdrop, Text.trim, String.toList_ofList,
    Json.trimChars_toChars_obj (by decide) rfl, Json.render]

/-! ### One reply for each call -/

/-- Every reply is the text of an envelope for a line of the channel. -/
theorem Inv.of_mem_replies (h : Inv resolve t) (he : t[k]? = some e) {reply : Nat × String}
    (hreply : reply ∈ e.replies) :
    reply.1 < e.lines.length ∧ ∃ envelope : Json, reply.2 = envelope.render := by
  have hmem : reply.2 ∈ e.repliesTo reply.1 :=
    List.mem_map_of_mem (List.mem_filter.mpr ⟨hreply, decide_eq_true rfl⟩)
  have hreplied := h.replied k e he reply.1
  unfold Replied at hreplied
  split at hreplied
  case h_1 => simp [hreplied.2] at hmem
  case h_2 fault hline =>
    refine ⟨?_, Envelope.ofFault fault, by simpa [hreplied.2] using hmem⟩
    obtain ⟨line, hline, -⟩ := Option.map_eq_some_iff.mp hline
    exact (List.getElem?_eq_some_iff.mp hline).1
  case h_3 call hline =>
    obtain ⟨j, n, -, -, -, hn⟩ := hreplied
    rw [hn, Option.mem_toList, Option.map_eq_some_iff] at hmem
    obtain ⟨envelope, -, henvelope⟩ := hmem
    refine ⟨?_, envelope, henvelope.symm⟩
    obtain ⟨line, hline, -⟩ := Option.map_eq_some_iff.mp hline
    exact (List.getElem?_eq_some_iff.mp hline).1

/-- A worker calls a function and then writes a line that is no call; the call returns later. -/
def twoLines (line : String) : List Act :=
  [.forwarded 0 line, .forwarded 0 "call", .returned 1 .null]

end Cascade

end Polyglot
