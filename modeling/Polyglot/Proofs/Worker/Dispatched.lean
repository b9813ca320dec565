import Polyglot.Dispatch
import Polyglot.Proofs.Request.Rendering
import Polyglot.Proofs.Exchange.Schedule
import Polyglot.Proofs.Worker.Framing

/-!
# Calls that are run with a worker

A call is run by handing its request to a worker, taking the lines of the worker as events, and reading
its output as an envelope, to which metadata is added.  If the code calls nothing, this comes to the
same as executing the request (`Dispatch.run_of_direct?`): the envelope has the value of the direct one
and the code and the message of its error, which moves under `errors`.  It does so in whatever order the
lines and the replies of others come one after another.

The steps are the request that is read back, the answer of the worker (`serveRequest_of_direct?`), the
lines that it is taken from, and the envelope that is read back from there and reported
(`Dispatch.answersAlike_report`).  The lines are those that a play goes through
(`Play.result_run_answer`), or those of the worker's outputs as a whole (`Worker.writesLines_worker`).
-/

namespace Polyglot

open Text (Raw)

/-! ### Lines that are written -/

namespace Text.Raw

/-- The lines without their newlines, if all of them are text. -/
def textLines? (r : Raw) : Option (List String) :=
  (lines r).mapM fun line => line.withoutNewline.text?

theorem lines_ofString_line {s : String} (h : '\n' ∉ s.toList) :
    lines (ofString (s ++ "\n")) = [ofString (s ++ "\n")] := by
  have hlines := lines_ofString_append h []
  rwa [List.append_nil, lines] at hlines

theorem withoutNewline_ofString_line {s : String} {cs : List Char} {c : Char}
    (hs : s.toList = cs ++ [c]) (hc : c ≠ '\r') :
    (ofString (s ++ "\n")).withoutNewline = ofString s := by
  have hreverse : (ofString (s ++ "\n")).reverse = some '\n' :: some c :: (cs.map some).reverse := by
    simp [ofString, hs]
  rw [withoutNewline, hreverse]
  split
  · rename_i h
    obtain ⟨-, h⟩ := List.cons.inj h
    exact absurd (Option.some.inj (List.cons.inj h).1) hc
  · rename_i h
    rw [← (List.cons.inj h).2]
    simp [ofString, hs]
  · rename_i h
    exact absurd rfl (h _)

/-- A text on a line of its own is the only line. -/
theorem textLines?_ofString_line {s : String} {cs : List Char} {c : Char} (hs : s.toList = cs ++ [c])
    (hc : c ≠ '\r') (hline : '\n' ∉ s.toList) : textLines? (ofString (s ++ "\n")) = some [s] := by
  rw [textLines?, lines_ofString_line hline, List.mapM_cons, withoutNewline_ofString_line hs hc,
    text?_ofString]
  rfl

end Text.Raw

/-- The last character of an object as text. -/
theorem Json.exists_toList_render_obj (fields : List (String × Json)) :
    ∃ cs, (Json.obj fields).render.toList = cs ++ ['\x7d'] := by
  obtain ⟨cs, hcs⟩ := Json.exists_toChars_obj fields
  exact ⟨'\x7b' :: cs, by rw [Json.render, String.toList_ofList, hcs, List.cons_append]⟩

/-- Whether a session that is run on an input writes just these lines as its output and beside it. -/
structure Session.WritesLines {α : Type} (session : Session α) (input : Raw)
    (output diagnostics : List String) : Prop where
  /-- The lines of the output. -/
  output_eq : Raw.textLines? (session.runOn input).output = some output
  /-- The lines beside it. -/
  diagnostics_eq : Raw.textLines? (session.runOn input).diagnostics = some diagnostics

namespace Play

variable {channel : Option Channel}

/-- An event that hands on no call changes the exchange only. -/
theorem step_of_forwarded_eq {p : Play} {event : Event}
    (h : (p.exchange.step channel event).forwarded = p.exchange.forwarded) :
    p.step channel event = { p with exchange := p.exchange.step channel event } := by
  rw [step]
  split_ifs
  · rfl
  · simp only [h, List.drop_length]

/-- A whole line is taken as one event. -/
theorem write_line {p : Play} {sink : Sink} (hp : p.partialLine sink = some []) {s : String}
    {cs : List Char} {c : Char} (hs : s.toList = cs ++ [c]) (hc : c ≠ '\r') (hline : '\n' ∉ s.toList)
    (h : (p.exchange.step channel (lineEvent sink s)).forwarded = p.exchange.forwarded) :
    p.write channel sink (Raw.ofString (s ++ "\n")) =
      { p with exchange := p.exchange.step channel (lineEvent sink s) } := by
  have hlast : (Raw.ofString (s ++ "\n")).getLast? = some (some '\n') := by
    simp [Raw.ofString]
  rw [write, hp]
  simp only [List.nil_append, Raw.lines_ofString_line hline, takeLines, if_pos hlast,
    Raw.withoutNewline_ofString_line hs hc, Raw.text?_ofString]
  rw [step_of_forwarded_eq h]
  -- The line that the output goes on with is empty before and after.
  cases sink <;> rw [setPartialLine, ← hp] <;> rfl

/-- An output that ends after a whole line just ends. -/
theorem close_of_partialLine {p : Play} {sink : Sink} (hp : p.partialLine sink = some [])
    (h : (p.exchange.step channel (endEvent sink)).forwarded = p.exchange.forwarded) :
    p.close channel sink =
      { p.setPartialLine sink none with exchange := p.exchange.step channel (endEvent sink) } := by
  have hexchange : (p.setPartialLine sink none).exchange = p.exchange := by cases sink <;> rfl
  rw [close, hp]
  exact (step_of_forwarded_eq (by rw [hexchange, h])).trans (by rw [hexchange])

end Play

namespace Exchange

theorem joinLines_singleton (line : String) : joinLines [line] = line := by
  rfl

/-- The line of an object is no call. -/
theorem isCall_render (fields : List (String × Json)) : isCall (Json.obj fields).render = false := by
  obtain ⟨cs, hcs⟩ := Json.exists_toChars_obj fields
  rw [isCall, Json.render, String.toList_ofList, hcs, Text.trimLeft_cons (by decide)]
  rfl

theorem isBlankText_render (fields : List (String × Json)) :
    Text.isBlankText (Json.obj fields).render = false := by
  obtain ⟨cs, hcs⟩ := Json.exists_toChars_obj fields
  have hopen : Text.isBlank '\x7b' = false := by decide
  rw [Text.isBlankText, Json.render, String.toList_ofList, hcs]
  simp [hopen]

theorem step_output_render (channel : Option Channel) {x : Exchange} (h : x.result = none)
    (fields : List (String × Json)) : x.step channel (.output (Json.obj fields).render) =
      { x with payload := x.payload ++ [(Json.obj fields).render] } := by
  rw [step_of_eq_none h, onEvent, onOutput.eq_def, isCall_render, isBlankText_render]
  rfl

/-- An output that is the line of an object is read as the envelope, whatever comes in between. -/
theorem result_after_render (channel : Option Channel) {fields : List (String × Json)}
    {diagnostics replies : List String} {events : List Event}
    (h : Interleaves [(Json.obj fields).render] diagnostics replies events) :
    (after channel events).result = some (Envelope.parse (Json.obj fields).render) := by
  have hpayload : payloadOf [(Json.obj fields).render] = [(Json.obj fields).render] := by
    simp [payloadOf, isCall_render, isBlankText_render]
  have hresult := result_after_of_no_call channel
    (fun line hline => List.mem_singleton.mp hline ▸ isCall_render fields) h.output_eq
  rwa [hpayload, joinLines_singleton] at hresult

/-- The line that says `end` closes the input. -/
theorem step_end {channel : Option Channel} {x : Exchange} (h : x.result = none) :
    x.step channel (.diagnostic "end") = { x with sampled := true, inputOpen := false } := by
  rw [step_of_eq_none h, onEvent, if_pos (by decide +kernel)]

end Exchange

/-! ### A worker that answers at once -/

namespace Worker

/-- The envelope of an execution that calls nothing: that of its result or of its fault. -/
def direct? (request : Request) : Option Json :=
  match (execute request).run with
  | .done (.ok envelope) => some envelope
  | .done (.error (.fault fault)) => some (Envelope.ofFault fault)
  | _ => none

theorem serveRequest_of_direct? {request : Request} {envelope : Json}
    (h : direct? request = some envelope) : serveRequest request = answer envelope := by
  rw [direct?] at h
  rw [serveRequest]
  split at h
  · rename_i result hrun
    obtain rfl := Option.some.inj h
    rw [hrun]
    rfl
  · rename_i fault hrun
    obtain rfl := Option.some.inj h
    rw [hrun]
    rfl
  · cases h

theorem wellFormed_ofFault (fault : Fault) : (Envelope.ofFault fault).WellFormed := by
  have hP := Json.compositional_wellFormed
  have herror : (Envelope.makeError fault.code fault.message).WellFormed := by
    refine .obj (Json.Fields.ascending_of_keys ["Z1K1", "Z5K1", "Z5K2"] rfl (by decide)) ?_
    simpa using ⟨hP.reference TypeId.error, hP.reference _, hP.text _⟩
  refine .obj (Json.Fields.ascending_of_keys ["Z1K1", "Z22K1", "Z22K2"] rfl (by decide)) ?_
  simpa [Envelope.void] using ⟨hP.reference TypeId.envelope, hP.reference TypeId.void, herror⟩

/-- What a request is answered with directly is a well-formed answer in which no error is hidden. -/
theorem isAnswer_of_direct? {request : Request} (hrequest : request.Holds Json.WellFormed)
    {envelope : Json} (h : direct? request = some envelope) : envelope.WellFormed ∧
      Envelope.isAnswer envelope = true ∧ ∀ error, ¬ Envelope.HidesError envelope error := by
  have hpost : (execute request).run.Ensures
      (fun r => ∀ v, r = .ok v → v.EveryDeclared Json.WellFormed) _ :=
    execute_ensures Json.compositional_wellFormed hrequest fun v hv => hv v rfl
  rw [direct?] at h
  split at h
  · rename_i result hrun
    obtain rfl := Option.some.inj h
    rw [hrun] at hpost
    obtain ⟨wire, hwire, rfl⟩ := hpost result rfl
    refine ⟨wellFormed_make_visible hwire, isAnswer_make_visible wire, ?_⟩
    rintro error ⟨map, hslot, hmap, -⟩
    obtain rfl : Envelope.void = map := Option.some.inj hslot
    rw [Envelope.isMap_void] at hmap
    cases hmap
  · rename_i fault hrun
    obtain rfl := Option.some.inj h
    exact ⟨wellFormed_ofFault fault, Envelope.isAnswer_ofFault fault,
      Envelope.not_hidesError_ofFault fault⟩
  · cases h

end Worker

namespace Play

variable {channel : Option Channel}

/-- The line of an object is kept as a line of the output. -/
theorem write_object {p : Play} (hresult : p.exchange.result = none)
    (houtput : p.partialLine .output = some []) (fields : List (String × Json)) :
    p.write channel .output (Raw.ofString ((Json.obj fields).render ++ "\n")) =
      { p with exchange.payload := p.exchange.payload ++ [(Json.obj fields).render] } := by
  obtain ⟨cs, htext⟩ := Json.exists_toList_render_obj fields
  have hline := Exchange.step_output_render channel hresult fields
  rw [write_line houtput htext (by decide) (Json.newline_notMem_render _)
    (by rw [lineEvent, hline])]
  exact congrArg ({ p with exchange := · }) hline

/-- The line that says `end` closes the input. -/
theorem write_end {p : Play} (hresult : p.exchange.result = none)
    (hdiagnostics : p.partialLine .diagnostics = some []) :
    p.write channel .diagnostics (Raw.ofString ("end" ++ "\n")) =
      { p with exchange.sampled := true, exchange.inputOpen := false } := by
  have hword : "end".toList = ['e', 'n'] ++ ['d'] := by decide +kernel
  have hstop : p.exchange.step channel (.diagnostic "end") = _ := Exchange.step_end hresult
  rw [write_line hdiagnostics hword (by decide) (by decide +kernel)
    (by rw [lineEvent, hstop])]
  exact congrArg ({ p with exchange := · }) hstop

/-- When both outputs end after whole lines, the lines of the output are read as the envelope. -/
theorem result_close {p : Play} (hresult : p.exchange.result = none)
    (houtput : p.partialLine .output = some []) (hdiagnostics : p.partialLine .diagnostics = some []) :
    ((p.close channel .diagnostics).close channel .output).exchange.result =
      some (Envelope.parse (Exchange.joinLines p.exchange.payload)) := by
  have hquiet : p.exchange.step channel .diagnosticsEnd = p.exchange :=
    Exchange.step_of_eq_none hresult _
  have hover : p.exchange.step channel .outputEnd = _ := Exchange.step_of_eq_none hresult .outputEnd
  let q : Play := { p with diagnostics := none }
  have hclosed : p.close channel .diagnostics = q :=
    (close_of_partialLine hdiagnostics (by rw [endEvent, hquiet])).trans
      (congrArg ({ q with exchange := · }) hquiet)
  have hend : q.close channel .output =
      { q.setPartialLine .output none with exchange := p.exchange.step channel .outputEnd } :=
    close_of_partialLine houtput (by rw [endEvent, hover]; rfl)
  rw [hclosed, hend, hover]
  rfl

/-- A worker that answers with an object ends the exchange with what this is read as. -/
theorem result_run_answer {p : Play} (hresult : p.exchange.result = none)
    (hpayload : p.exchange.payload = []) (houtput : p.partialLine .output = some [])
    (hdiagnostics : p.partialLine .diagnostics = some []) (fields : List (String × Json))
    {k : Worker.Ending → Session Nat} {status : Nat} (hk : k .answered = .done status) :
    (run channel (Worker.answer (.obj fields) >>= k) p).exchange.result =
      some (Envelope.parse (Json.obj fields).render) := by
  have hanswer : (Worker.answer (.obj fields) >>= k) =
      .write .output (Raw.ofString ((Json.obj fields).render ++ "\n")) fun _ =>
        .write .diagnostics (Raw.ofString ("end" ++ "\n")) fun _ => k .answered := rfl
  let q : Play := { p with exchange.payload := p.exchange.payload ++ [(Json.obj fields).render] }
  let r : Play := { q with exchange.sampled := true, exchange.inputOpen := false }
  have hwrite : p.write channel .output (Raw.ofString ((Json.obj fields).render ++ "\n")) = q :=
    write_object hresult houtput fields
  have hend : q.write channel .diagnostics (Raw.ofString ("end" ++ "\n")) = r :=
    write_end hresult hdiagnostics
  have hclose : ((r.close channel .diagnostics).close channel .output).exchange.result =
      some (Envelope.parse (Exchange.joinLines r.exchange.payload)) :=
    result_close hresult houtput hdiagnostics
  have hlines : r.exchange.payload = [(Json.obj fields).render] := by
    simp only [r, q, hpayload, List.nil_append]
  rw [hanswer, run, hwrite, if_neg (by simp [q, hresult]), run, hend,
    if_neg (by simp [r, q, hresult]), hk, run, hclose, hlines, Exchange.joinLines_singleton]

end Play

/-! ### A request that is served -/

namespace Worker

/-- The worker as what it does with the first line that is not blank. -/
theorem launch_worker : Launch.worker [] = .read isBlankLine fun line =>
    serveLine line >>= fun ending => .done (Launch.statusOf ending) := by
  rw [Launch.worker, if_pos (.inl rfl)]
  rfl

theorem serveLine_of_direct? {request : Request} {envelope : Json}
    (hread : Request.read? request.render = some request) (hdirect : direct? request = some envelope) :
    serveLine (Raw.ofString (request.render ++ "\n")) = answer envelope := by
  rw [← serveRequest_of_direct? hdirect]
  exact serveLine_eq_serveRequest (lineText_render request.fields) hread

/-- A worker that is handed a request that it reads back writes its direct answer and `end`, whatever
follows the request. -/
theorem writesLines_worker {request : Request} {fields : List (String × Json)}
    (hread : Request.read? request.render = some request)
    (hdirect : direct? request = some (.obj fields)) (later : Raw) :
    (Launch.worker []).WritesLines (Raw.ofString (request.render ++ "\n") ++ later)
      [(Json.obj fields).render] ["end"] := by
  have hline : Session.nextLine isBlankLine (Raw.ofString (request.render ++ "\n") ++ later) =
      (Raw.ofString (request.render ++ "\n"), later) := nextLine_render request.fields later
  have htranscript : (Launch.worker []).runOn (Raw.ofString (request.render ++ "\n") ++ later) =
      ⟨Raw.ofString ((Json.obj fields).render ++ "\n") ++ [], Raw.ofString ("end" ++ "\n") ++ [],
        some 0⟩ := by
    rw [launch_worker, Session.runOn, hline, serveLine_of_direct? hread hdirect]
    rfl
  obtain ⟨cs, htext⟩ := Json.exists_toList_render_obj fields
  have hword : "end".toList = ['e', 'n'] ++ ['d'] := by decide +kernel
  constructor <;> rw [htranscript, List.append_nil]
  · exact Raw.textLines?_ofString_line htext (by decide) (Json.newline_notMem_render _)
  · exact Raw.textLines?_ofString_line hword (by decide) (by decide +kernel)

end Worker

namespace Play

variable {channel : Option Channel}

/-- A line that is there is read at once. -/
theorem readLine_of_nextLine {p : Play} {skip : Raw → Bool} {line inbox : Raw}
    (h : Session.nextLine skip p.inbox = (line, inbox)) (hne : line ≠ []) (pending : List (Nat × String)) :
    p.readLine channel skip pending = some (line, { p with inbox := inbox, pending := pending }) := by
  cases pending <;> simp only [readLine, h, if_pos hne]

/-- A worker that is handed a request that it reads back ends the exchange with its direct answer. -/
theorem result_run_worker {request : Request} {fields : List (String × Json)}
    (hread : Request.read? request.render = some request)
    (hdirect : Worker.direct? request = some (.obj fields)) :
    (run channel (Launch.worker []) (start (Raw.ofString (request.render ++ "\n")))).exchange.result =
      some (Envelope.parse (Json.obj fields).render) := by
  have hline : Session.nextLine Worker.isBlankLine (start (Raw.ofString (request.render ++ "\n"))).inbox =
      (Raw.ofString (request.render ++ "\n"), []) := by
    have h := Worker.nextLine_render request.fields []
    rwa [List.append_nil] at h
  have hne : Raw.ofString (request.render ++ "\n") ≠ [] := by simp [Raw.ofString]
  rw [Worker.launch_worker, run, readLine_of_nextLine hline hne]
  simp only [Worker.serveLine_of_direct? hread hdirect]
  exact result_run_answer rfl rfl rfl rfl fields rfl

end Play

/-! ### A run from the call to the envelope -/

/-- Whether two envelopes answer alike: with the same value, and the same code and message of an error. -/
structure Envelope.AnswersAlike (envelope other : Json) : Prop where
  /-- The values. -/
  value : value? envelope = value? other
  /-- The codes of the errors. -/
  code : errorCode? envelope = errorCode? other
  /-- The messages of the errors. -/
  message : errorMessage? envelope = errorMessage? other

/-- Whether a process is a worker for scripts that nobody has used yet. -/
structure WorkerProcess.IsServing (p : WorkerProcess) : Prop where
  session : p.session = Launch.worker []
  inbox : p.inbox = []
  inputOpen : p.inputOpen = true
  listening : p.listening = true
  output : p.output.taken = false
  diagnostics : p.diagnostics.taken = false

/-- So is a worker that has just been started. -/
theorem WorkerProcess.isServing_of_start {others : Launch.Programs} {tree : FileTree}
    {language : String} {e : Executor} {p : WorkerProcess} (h : start others tree language e = .ok p)
    (hprogram : tree.findProgram e.executable = .ok (.program Launch.workerName))
    (hargs : e.args = [] ∨ e.args = ["serve"]) : p.IsServing := by
  rw [start, Launch.start] at h
  split at h
  · rename_i session hsession
    obtain rfl := Except.ok.inj h
    split_ifs at hsession
    rw [hprogram] at hsession
    have hworker : session = Launch.worker [] := by
      rw [← Except.ok.inj hsession, Launch.program, if_pos rfl, Launch.worker, Launch.worker,
        if_pos hargs, if_pos (.inl rfl)]
    exact ⟨hworker, rfl, rfl, rfl, rfl, rfl⟩
  · cases h

namespace Dispatch

variable {site : Site} {call : Json} (channel : Option Channel)

theorem run_eq_exchange {process : Option WorkerProcess} {worker : WorkerProcess}
    (h : process.elim (startFor site call) .ok = .ok worker) :
    run site call process channel = exchange site call worker channel := by
  cases process with
  | none =>
    have hstart : startFor site call = .ok worker := h
    rw [run]
    simp only [hstart]
  | some process =>
    obtain rfl := Except.ok.inj h
    rfl

/-- What is reported of an exchange with a worker that serves is what it has answered. -/
theorem exchange_of_isServing {i : Implementation} (himplementation : Call.implementation call = .ok i)
    {worker : WorkerProcess} (h : worker.IsServing) {request : Request}
    (hrequest : Call.request call i = request) (hread : Request.read? request.render = some request)
    {fields : List (String × Json)} (hdirect : Worker.direct? request = some (.obj fields))
    (hparse : Envelope.parse (Json.obj fields).render = .ok (.obj fields)) :
    ∃ milliseconds sampled, (exchange site call worker channel).envelope =
      some (report site.measurement milliseconds sampled (.obj fields)) := by
  subst hrequest
  obtain ⟨pid, language, session, inbox, inputOpen, listening, output, diagnostics, terminated⟩ :=
    worker
  obtain ⟨rfl, rfl, rfl, rfl, houtput, hdiagnostics⟩ := h
  dsimp only at houtput hdiagnostics
  rw [exchange, himplementation]
  simp only [WorkerProcess.take, WorkerProcess.pipe, WorkerProcess.changePipe, houtput, hdiagnostics]
  simp only [WorkerProcess.writeLine, Bool.not_true, Bool.not_false, Bool.and_self, if_true,
    Bool.false_eq_true, if_false, List.nil_append, finished, reported, Play.result_run_worker hread hdirect, hparse,
    Option.map_some]
  exact ⟨_, _, rfl⟩

/-- What is reported of an answer in which no error is hidden answers alike. -/
theorem answersAlike_report (m : Measurement) (milliseconds : Nat) (sampled : Bool) {answer : Json}
    (hanswer : Envelope.isAnswer answer = true)
    (hhides : ∀ error, ¬ Envelope.HidesError answer error) :
    Envelope.AnswersAlike (report m milliseconds sampled answer) answer := by
  have herror := (Envelope.error?_report_eq_iff m milliseconds sampled hanswer).mpr hhides
  refine ⟨?_, ?_, ?_⟩
  · rw [Envelope.report_eq_setAll, Envelope.value?_setAll]
  · rw [Envelope.errorCode?, herror, Envelope.errorCode?]
  · rw [Envelope.errorMessage?, herror, Envelope.errorMessage?]

/-- A run of a call whose request and whose direct answer are both within the limit on nesting, and
which does not ask for the type null, comes to the direct answer: to its value, and to the code and the
message of its error.  So does what is reported of the lines of the worker's outputs, in whatever order
they and replies to the worker come one after another. -/
theorem run_of_direct? {i : Implementation} {worker : WorkerProcess} {envelope : Json}
    (process : Option WorkerProcess) (hcall : call.WellFormed)
    (himplementation : Call.implementation call = .ok i)
    (hworker : process.elim (startFor site call) .ok = .ok worker) (hserving : worker.IsServing)
    (hdirect : Worker.direct? (Call.request call i) = some envelope)
    (hrequest : (Json.obj (Call.request call i).fields).depth ≤ Json.maxDepth)
    (hdepth : envelope.depth ≤ Json.maxDepth)
    (htype : (Call.request call i).returnType ≠ some .null)
    (hsent : ∀ n ∈ (Json.obj (Call.request call i).fields).numbers, n.reread? = some n)
    (hanswered : ∀ n ∈ envelope.numbers, n.reread? = some n) :
    (∃ reported, (run site call process channel).envelope = some reported ∧
      Envelope.AnswersAlike reported envelope) ∧
    ∃ output diagnostics,
      (∀ later, worker.session.WritesLines
        (Raw.ofString ((Call.request call i).render ++ "\n") ++ later) output diagnostics) ∧
      ∀ replies events milliseconds, Interleaves output diagnostics replies events →
        ∃ answer, reported site milliseconds (Exchange.after channel events) = some answer ∧
          Envelope.AnswersAlike answer envelope := by
  obtain ⟨hwell, hk⟩ := Call.holds_request hcall i
  have hread := Request.read?_render_of_depth_le hwell hk hrequest htype hsent
  obtain ⟨hanswer, hisAnswer, hhides⟩ := Worker.isAnswer_of_direct? hwell hdirect
  have hparse := (Envelope.parse_render_iff hanswer).mpr ⟨hisAnswer, hdepth, hanswered⟩
  obtain ⟨fields, rfl⟩ := Envelope.exists_obj_of_isAnswer hisAnswer
  refine ⟨?_, [(Json.obj fields).render], ["end"], fun later => ?_, ?_⟩
  · obtain ⟨milliseconds, sampled, hexchange⟩ :=
      exchange_of_isServing channel himplementation hserving rfl hread hdirect hparse
    exact ⟨_, (congrArg Outcome.envelope (run_eq_exchange channel hworker)).trans hexchange,
      answersAlike_report _ _ _ hisAnswer hhides⟩
  · rw [hserving.session]
    exact Worker.writesLines_worker hread hdirect later
  · intro replies events milliseconds hevents
    rw [reported, Exchange.result_after_render channel hevents, hparse]
    exact ⟨_, rfl, answersAlike_report _ _ _ hisAnswer hhides⟩

/-! ### A script that throws -/

/-- The call of a function whose script throws. -/
def throwingCall : Json :=
  .obj [("Z1K1", .str "Z7"), ("Z7K1", .obj [("Z1K1", .str "Z8"),
    ("Z8K4", .arr [.str "Z14", .obj [("Z14K3", .obj [("Z16K1", .str "zscript"),
      ("Z16K2", .str "function Z1000() \x7b throw \"no luck\"; \x7d")])]]),
    ("Z8K5", .str "Z1000")])]

/-- The script of that function. -/
def throwingProgram : Script.Program :=
  [.function (.mk "Z1000" [] (.block [.throw (.literal (.text "no luck"))]))]

/-- A place where the worker for scripts is among the programs. -/
def scriptSite : Site where
  files := ⟨[], [(["usr", "bin", Launch.workerName], .program Launch.workerName)]⟩
  programs _ _ _ := .done 0
  registry := .builtin Launch.workerName
  measurement := ⟨"", "", ⟨0, 0⟩, ⟨0, 0⟩, ""⟩

theorem implementation_throwingCall : Call.implementation throwingCall =
    .ok ⟨"zscript", some "function Z1000() \x7b throw \"no luck\"; \x7d"⟩ := by
  rfl

theorem compile_throwing :
    Script.compile "function Z1000() \x7b throw \"no luck\"; \x7d" = .ok throwingProgram := by
  with_unfolding_all rfl

/-- The call is answered with the fault of the script. -/
theorem direct?_throwingCall :
    Worker.direct? (Call.request throwingCall
      ⟨"zscript", some "function Z1000() \x7b throw \"no luck\"; \x7d"⟩) =
        some (Envelope.ofFault (.execution "no luck")) := by
  have hcode : Worker.codeOf (Call.request throwingCall
      ⟨"zscript", some "function Z1000() \x7b throw \"no luck\"; \x7d"⟩) =
        .ok "function Z1000() \x7b throw \"no luck\"; \x7d" := by
    decide +kernel
  have hinvoke : Script.invoke throwingProgram "Z1000" [] =
      .done (.error (.execution "no luck")) := by
    cbv
  have hrun : (Worker.execute (Call.request throwingCall
      ⟨"zscript", some "function Z1000() \x7b throw \"no luck\"; \x7d"⟩)).run =
        .done (.error (.fault (.execution "no luck"))) := by
    rw [Worker.execute, hcode]
    show (Worker.ofFault (Script.compile _) >>= _).run = _
    rw [compile_throwing]
    show ((liftM (Script.invoke throwingProgram "Z1000" []) : Worker.Execution _) >>= _).run = _
    rw [hinvoke]
    rfl
  rw [Worker.direct?, hrun]

theorem exists_startFor_throwingCall : ∃ worker,
    startFor scriptSite throwingCall = .ok worker ∧ worker.IsServing := by
  obtain ⟨worker, hstart⟩ : ∃ worker, WorkerProcess.start scriptSite.programs scriptSite.files "zscript"
      ⟨Launch.workerName, [], []⟩ = .ok worker := ⟨_, rfl⟩
  exact ⟨worker, hstart, WorkerProcess.isServing_of_start hstart (by decide +kernel) (.inl rfl)⟩

/-- A worker that is started for the call says what the script has thrown. -/
theorem run_of_direct?_throwing : ∃ reported,
    (run scriptSite throwingCall none none).envelope = some reported ∧
      Envelope.value? reported = none ∧ Envelope.errorCode? reported = some "Z507" ∧
      Envelope.errorMessage? reported = some "no luck" := by
  obtain ⟨worker, hstart, hserving⟩ := exists_startFor_throwingCall
  have hcall : throwingCall.WellFormed := by decide +kernel
  obtain ⟨⟨reported, hreported, hvalue, hcode, hmessage⟩, -⟩ :=
    run_of_direct? none none hcall implementation_throwingCall hstart hserving direct?_throwingCall
      (by decide +kernel) (by decide +kernel) (by rintro ⟨⟩) (by decide +kernel) (by decide +kernel)
  exact ⟨reported, hreported, hvalue.trans (by decide +kernel), hcode.trans (by decide +kernel),
    hmessage.trans (by decide +kernel)⟩

end Dispatch

end Polyglot
