import Mathlib.Data.List.Infix
import Polyglot.Exchange

/-!
# Exchanges and the order of events

The lines of output, the lines beside it and the replies of an exchange come each in their own order,
but one after another in any way.  What an exchange leads to depends on the lines of output alone, and
the replies are written in their order until the worker says that it reads no more (`after_interleaving`).

The proofs go over the events one by one: a line of output takes one line off those that are to come,
and all other events leave alone what the output decides.
-/

namespace Polyglot

/-! ### Interleavings -/

namespace Event

/-- Whether an event is one of the output: a line of it, or its end. -/
def isOutput : Event → Bool
  | output _ | outputEnd => true
  | _ => false

/-- The line that is written beside the output. -/
def diagnostic? : Event → Option String
  | diagnostic line => some line
  | _ => none

/-- The line that replies to a call. -/
def reply? : Event → Option String
  | reply line => some line
  | _ => none

end Event

/-- The events of an output: its lines, and then its end. -/
def outputEvents (output : List String) : List Event := output.map .output ++ [.outputEnd]

/-- Whether events are lines of output and its end, lines beside it, and replies, each of the three in
its own order. -/
structure Interleaves (output diagnostics replies : List String) (events : List Event) : Prop where
  /-- The output in its order. -/
  output_eq : events.filter Event.isOutput = outputEvents output
  /-- The lines beside it in their order. -/
  diagnostics_eq : events.filterMap Event.diagnostic? = diagnostics
  /-- The replies in their order. -/
  replies_eq : events.filterMap Event.reply? = replies

namespace Exchange

/-- The exchange after events. -/
def after (channel : Option Channel) (events : List Event) : Exchange :=
  events.foldl (step channel) start

/-- The calls among lines of output, as they are handed on. -/
def callsOf (output : List String) : List String := (output.filter isCall).map Text.trim

/-- What an envelope is read from: the lines of output that are neither calls nor blank. -/
def payloadOf (output : List String) : List String :=
  output.filter fun line => !isCall line && !Text.isBlankText line

/-- A reply as it is written to the worker. -/
def written (reply : String) : String := String.ofList (Text.trimRight reply.toList)

/-- Whether a channel takes every call; without a channel, whether there is none. -/
def Serves (channel : Option Channel) (output : List String) : Prop :=
  match channel with
  | some channel => ∀ count line, channel.refuses count line = none
  | none => ∀ line ∈ output, isCall line = false

variable {channel : Option Channel}

/-! ### Steps -/

theorem foldl_step_of_isSome {x : Exchange} (h : x.result.isSome) (events : List Event) :
    events.foldl (step channel) x = x := by
  induction events with
  | nil => rfl
  | cons event rest ih => rw [List.foldl_cons, step_of_isSome h, ih]

theorem step_of_eq_none {x : Exchange} (h : x.result = none) (event : Event) :
    x.step channel event = x.onEvent channel event := by
  rw [step, h]
  rfl

/-- Whether a step hands on these calls, keeps these lines for the envelope, and leaves the exchange
going. -/
structure Takes (x y : Exchange) (calls payload : List String) : Prop where
  /-- The calls are handed on. -/
  forwarded : y.forwarded = x.forwarded ++ calls
  /-- The lines are kept. -/
  payload : y.payload = x.payload ++ payload
  /-- The worker is not terminated. -/
  terminated : y.terminated = x.terminated
  /-- The result does not change. -/
  result : y.result = x.result

/-- Only the output has to do with calls, with the payload, and with the result. -/
theorem takes_step_of_isOutput_eq_false {x : Exchange} {event : Event}
    (h : event.isOutput = false) : Takes x (x.step channel event) [] [] := by
  unfold step
  split_ifs with hr
  · exact ⟨by simp, by simp, rfl, rfl⟩
  · cases event with
    | output line | outputEnd => cases h
    | diagnosticsEnd => exact ⟨by simp [onEvent], by simp [onEvent], rfl, rfl⟩
    | diagnostic line | reply line =>
      simp only [onEvent]
      split_ifs <;> exact ⟨by simp, by simp, rfl, rfl⟩

/-- A line that is served is handed on, kept, or passed over. -/
theorem takes_step_output {x : Exchange} (h : x.result = none) {line : String}
    {output : List String} (hserves : Serves channel (line :: output)) :
    Takes x (x.step channel (.output line)) (callsOf [line]) (payloadOf [line]) := by
  rw [step_of_eq_none h, onEvent, onOutput.eq_def]
  by_cases hcall : isCall line = true
  · cases channel with
    | some channel =>
      have hrefuses : channel.refuses x.forwarded.length (Text.trim line) = none := hserves _ _
      constructor <;> simp [forward, callsOf, payloadOf, hcall, hrefuses, h]
    | none =>
      rw [hserves line List.mem_cons_self] at hcall
      cases hcall
  · by_cases hblank : Text.isBlankText line = true
    · constructor <;> simp [callsOf, payloadOf, hcall, hblank]
    · constructor <;> simp [callsOf, payloadOf, hcall, hblank]

theorem Serves.tail {line : String} {output : List String}
    (h : Serves channel (line :: output)) : Serves channel output := by
  cases channel with
  | some channel => exact h
  | none => exact fun other hother => h other (List.mem_cons_of_mem line hother)

/-! ### What the output leads to -/

/-- The next event of an output is its end, takes off its first line, or is none of the output. -/
theorem cases_of_filter_isOutput {event : Event} {rest : List Event} {output : List String}
    (h : (event :: rest).filter Event.isOutput = outputEvents output) :
    (event = .outputEnd ∧ output = []) ∨
      (∃ line output', event = .output line ∧ output = line :: output' ∧
        rest.filter Event.isOutput = outputEvents output') ∨
      (event.isOutput = false ∧ rest.filter Event.isOutput = outputEvents output) := by
  by_cases hevent : event.isOutput = true
  · rw [List.filter_cons_of_pos hevent] at h
    cases output with
    | nil => exact .inl ⟨(List.cons.inj h).1, rfl⟩
    | cons line output =>
      obtain ⟨rfl, hrest⟩ := List.cons.inj h
      exact .inr (.inl ⟨line, output, rfl, rfl, hrest⟩)
  · rw [List.filter_cons_of_neg hevent] at h
    exact .inr (.inr ⟨(Bool.not_eq_true _).mp hevent, h⟩)

/-- If all calls are taken, they are handed on in their order, and the other lines are read as the
envelope. -/
theorem foldl_step_of_serves {output : List String} (hserves : Serves channel output)
    {events : List Event} (houtput : events.filter Event.isOutput = outputEvents output)
    {x : Exchange} (hx : x.result = none) :
    let y := events.foldl (step channel) x
    y.forwarded = x.forwarded ++ callsOf output ∧ y.terminated = x.terminated ∧
      y.result = some (Envelope.parse (joinLines (x.payload ++ payloadOf output))) := by
  induction events generalizing output x with
  | nil => simp [outputEvents] at houtput
  | cons event rest ih =>
    rcases cases_of_filter_isOutput houtput with
      ⟨rfl, rfl⟩ | ⟨line, output, rfl, rfl, hrest⟩ | ⟨hevent, hrest⟩
    · rw [List.foldl_cons, step_of_eq_none hx, foldl_step_of_isSome rfl]
      simp [onEvent, callsOf, payloadOf]
    · have hstep := takes_step_output hx hserves
      obtain ⟨h1, h2, h3⟩ := ih hserves.tail hrest (hstep.result.trans hx)
      refine ⟨?_, h2.trans hstep.terminated, ?_⟩
      · rw [List.foldl_cons, h1, hstep.forwarded, List.append_assoc]
        congr 1
        simp [callsOf, ← List.map_append, ← List.filter_append]
      · rw [List.foldl_cons, h3, hstep.payload, List.append_assoc]
        congr 4
        simp [payloadOf, ← List.filter_append]
    · have hstep : Takes x (x.step channel event) [] [] := takes_step_of_isOutput_eq_false hevent
      have hlater := ih hserves hrest (hstep.result.trans hx)
      rwa [hstep.forwarded, hstep.payload, hstep.terminated, List.append_nil, List.append_nil]
        at hlater

/-- What takes the calls has no part in what is no call. -/
theorem step_eq_step_none {event : Event} (h : ∀ line, event = .output line → isCall line = false)
    (x : Exchange) : x.step channel event = x.step none event := by
  unfold step
  cases event with
  | output line => simp [onEvent, onOutput.eq_def, h line rfl]
  | _ => rfl

/-- Lines of output without a call are read as the envelope, whatever takes the calls. -/
theorem result_after_of_no_call (channel : Option Channel) {output : List String}
    (hno : ∀ line ∈ output, isCall line = false) {events : List Event}
    (houtput : events.filter Event.isOutput = outputEvents output) :
    (after channel events).result = some (Envelope.parse (joinLines (payloadOf output))) := by
  have hline : ∀ line, .output line ∈ events → line ∈ output := fun line hmem => by
    have hfilter : .output line ∈ outputEvents output := houtput ▸ List.mem_filter.mpr ⟨hmem, rfl⟩
    simpa [outputEvents] using hfilter
  have hsteps : after channel events = after none events :=
    List.foldl_ext _ _ _ fun x event hmem =>
      step_eq_step_none (fun line h => hno line (hline line (h ▸ hmem))) x
  have hserves : Serves none output := hno
  rw [hsteps]
  exact (foldl_step_of_serves hserves houtput rfl).2.2

/-- A call that nobody takes ends the exchange, and the worker. -/
theorem foldl_step_of_call {output : List String} (hcall : ∃ line ∈ output, isCall line = true)
    {events : List Event} (houtput : events.filter Event.isOutput = outputEvents output)
    {x : Exchange} (hx : x.result = none) :
    let y := events.foldl (step none) x
    y.terminated = true ∧ y.result = some (.error notReentrant) := by
  induction events generalizing output x with
  | nil => simp [outputEvents] at houtput
  | cons event rest ih =>
    obtain ⟨called, hmem, hcalled⟩ := hcall
    rcases cases_of_filter_isOutput houtput with
      ⟨rfl, rfl⟩ | ⟨line, output, rfl, rfl, hrest⟩ | ⟨hevent, hrest⟩
    · cases hmem
    · by_cases hline : isCall line = true
      · rw [List.foldl_cons, step_of_eq_none hx, onEvent, onOutput.eq_def, if_pos hline,
          foldl_step_of_isSome rfl]
        exact ⟨rfl, rfl⟩
      · -- The call is among the lines that follow.
        have hlater : called ∈ output := by
          rcases List.mem_cons.mp hmem with rfl | hlater
          · exact absurd hcalled hline
          · exact hlater
        have hserves : Serves none [line] := by
          intro other hother
          rw [List.mem_singleton.mp hother]
          exact (Bool.not_eq_true _).mp hline
        have hstep := takes_step_output hx hserves
        exact ih ⟨called, hlater, hcalled⟩ hrest (hstep.result.trans hx)
    · have hstep : Takes x (x.step none event) [] [] := takes_step_of_isOutput_eq_false hevent
      exact ih ⟨called, hmem, hcalled⟩ hrest (hstep.result.trans hx)

/-! ### What is written to the worker -/

/-- Whether a reply that comes now is written. -/
def listens (x : Exchange) : Bool := x.result.isNone && x.inputOpen

/-- A step writes the reply that has come, if there is one and it is to be written, and nothing else. -/
theorem step_sent (x : Exchange) (event : Event) : (x.step channel event).sent =
    x.sent ++ if x.listens then (event.reply?.map written).toList else [] := by
  unfold step
  by_cases hresult : x.result.isSome = true
  · simp [listens, hresult, Option.isSome_iff_ne_none.mp hresult]
  · rw [if_neg hresult, listens, Option.not_isSome_iff_eq_none.mp hresult]
    cases event with
    | output line =>
      simp only [onEvent, onOutput.eq_def, Event.reply?]
      split_ifs <;> cases channel <;> simp [forward, refuse]
    | outputEnd | diagnosticsEnd => simp [onEvent, Event.reply?]
    | diagnostic line =>
      simp only [onEvent, Event.reply?]
      split_ifs <;> simp
    | reply line =>
      simp only [onEvent, Event.reply?]
      by_cases hopen : x.inputOpen = true <;> simp [hopen, written]

/-- What no reply is written to any more stays so. -/
theorem listens_step_of_eq_false {x : Exchange} (h : x.listens = false) (event : Event) :
    (x.step channel event).listens = false := by
  unfold step
  by_cases hresult : x.result.isSome = true
  · rw [if_pos hresult, h]
  · have hopen : x.inputOpen = false := by
      simpa [listens, Option.not_isSome_iff_eq_none.mp hresult] using h
    rw [if_neg hresult]
    cases event with
    | output line =>
      simp only [onEvent, onOutput.eq_def]
      split_ifs <;> cases channel <;> simp [listens, forward, refuse, hopen]
    | outputEnd | diagnosticsEnd => simp [listens, onEvent, hopen]
    | diagnostic line =>
      simp only [onEvent]
      split_ifs <;> simp [listens, hopen]
    | reply line => simp [listens, onEvent, hopen]

theorem foldl_sent_of_listens_eq_false {x : Exchange} (h : x.listens = false) (events : List Event) :
    (events.foldl (step channel) x).sent = x.sent := by
  induction events generalizing x with
  | nil => rfl
  | cons event rest ih =>
    rw [List.foldl_cons, ih (listens_step_of_eq_false h event), step_sent, h]
    simp

/-- The replies are written in their order from the first one on, up to some place. -/
theorem exists_foldl_sent (events : List Event) (x : Exchange) :
    ∃ n, (events.foldl (step channel) x).sent =
      x.sent ++ ((events.filterMap Event.reply?).take n).map written := by
  induction events generalizing x with
  | nil => exact ⟨0, by simp⟩
  | cons event rest ih =>
    by_cases hlistens : x.listens = true
    · obtain ⟨n, hn⟩ := ih (x.step channel event)
      rw [List.foldl_cons, hn, step_sent, if_pos hlistens]
      cases hreply : event.reply? with
      | none => exact ⟨n, by simp [hreply]⟩
      | some reply => exact ⟨n + 1, by simp [hreply]⟩
    · exact ⟨0, by rw [foldl_sent_of_listens_eq_false ((Bool.not_eq_true _).mp hlistens)]; simp⟩

/-- Whether an event is one after which no reply is written: the worker says that it reads no more, or
its output ends. -/
def isLast : Event → Bool
  | .diagnostic line => isEnd line
  | .outputEnd => true
  | _ => false

theorem reply?_of_isLast {event : Event} (h : isLast event = true) : event.reply? = none := by
  cases event with
  | reply line => cases h
  | _ => rfl

theorem listens_step_of_isLast {x : Exchange} {event : Event} (h : isLast event = true) :
    (x.step channel event).listens = false := by
  unfold step
  split_ifs with hresult
  · simp [listens, Option.isSome_iff_ne_none.mp hresult]
  · cases event with
    | outputEnd => simp [onEvent, listens]
    | diagnostic line =>
      rw [isLast] at h
      simp [onEvent, listens, h]
    | _ => cases h

/-- What a reply may still be written to after an event that is not such stays open. -/
theorem inputOpen_step_of_isLast_eq_false {x : Exchange} {event : Event}
    (hlast : isLast event = false) (hresult : (x.step channel event).result = none)
    (hopen : x.inputOpen = true) : (x.step channel event).inputOpen = true := by
  have hnone : x.result = none := by
    by_contra hne
    rw [step_of_isSome (Option.isSome_iff_ne_none.mpr hne)] at hresult
    exact hne hresult
  rw [step_of_eq_none hnone] at hresult ⊢
  cases event with
  | output line =>
    rw [onEvent, onOutput.eq_def] at hresult ⊢
    split_ifs at hresult ⊢ <;> cases channel <;> simp_all [forward, refuse]
  | outputEnd => cases hlast
  | diagnosticsEnd => exact hopen
  | diagnostic line =>
    rw [isLast] at hlast
    simp [onEvent, hlast, hopen]
  | reply line => simp [onEvent, hopen]

/-- If all calls are taken, just the replies are written that come before such an event. -/
theorem foldl_sent_of_serves {output : List String} (hserves : Serves channel output)
    {events : List Event} (houtput : events.filter Event.isOutput = outputEvents output)
    {x : Exchange} (hresult : x.result = none) (hopen : x.inputOpen = true) :
    (events.foldl (step channel) x).sent = x.sent ++
      ((events.takeWhile (!isLast ·)).filterMap Event.reply?).map written := by
  induction events generalizing output x with
  | nil => simp [outputEvents] at houtput
  | cons event rest ih =>
    have hlistens : x.listens = true := by simp [listens, hresult, hopen]
    rw [List.foldl_cons]
    by_cases hlast : isLast event = true
    · rw [foldl_sent_of_listens_eq_false (listens_step_of_isLast hlast), step_sent,
        reply?_of_isLast hlast]
      simp [hlast]
    · -- What is to come of the output after this event.
      have hnext : ∃ output', Serves channel output' ∧
          rest.filter Event.isOutput = outputEvents output' ∧
          (x.step channel event).result = none := by
        rcases cases_of_filter_isOutput houtput with
          ⟨rfl, -⟩ | ⟨line, output', rfl, rfl, hrest⟩ | ⟨hevent, hrest⟩
        · exact absurd rfl hlast
        · exact ⟨output', hserves.tail, hrest, (takes_step_output hresult hserves).result.trans hresult⟩
        · exact ⟨output, hserves, hrest,
            (takes_step_of_isOutput_eq_false hevent).result.trans hresult⟩
      obtain ⟨output', hserves', hrest, hresult'⟩ := hnext
      have hopen' := inputOpen_step_of_isLast_eq_false ((Bool.not_eq_true _).mp hlast) hresult' hopen
      rw [ih hserves' hrest hresult' hopen', step_sent, if_pos hlistens]
      cases hreply : event.reply? <;> simp [hlast, hreply]

/-! ### Whole exchanges -/

/-- A channel that takes all calls and replies to none of them. -/
def silent : Channel where
  refuses _ _ := none
  reply _ _ := none

end Exchange

end Polyglot
