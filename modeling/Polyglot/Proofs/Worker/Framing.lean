import Polyglot.Proofs.Json.OneLine
import Polyglot.Proofs.Script.Closed
import Polyglot.Proofs.Session.Acts
import Polyglot.Proofs.Worker.Handover

/-!
# The lines of a worker

A worker and its caller talk in lines: the request comes first, the reply to each call after this call,
and the answer is what is written last.  What a script does has no part in it, since a call is the only
thing on the streams that a run can ask for, and the run is over when a call has failed.

- `execute_stopsOnFault` is the property of runs that all of this rests on.
- `converses_converse` puts the calls of any such run between the lines that are read for them; a call
  that cannot be passed on leaves no trace (`converse_callBack`).
- `serve_framed` is the whole protocol, as it holds whenever a worker comes to its end.
-/

namespace Polyglot

open Text (Raw)
open Session (Act)

namespace Worker

variable {α β : Type}

/-! ### How a session ends -/

theorem result_runOn_answer (envelope : Json) (input : Raw) :
    ((answer envelope).runOn input).result = some .answered := rfl

theorem result_runOn_serve (input : Raw) :
    (serve.runOn input).result = ((serveLine (Session.nextLine isBlankLine input).1).runOn
      (Session.nextLine isBlankLine input).2).result := rfl

theorem result_runOn_call {function : String} {arguments : List Value} {call : Json}
    (h : callObject function arguments = .ok call) (next : Except Fault Value → Talk α)
    (k : Option α → Session β) (input : Raw) :
    ((converse (.call function arguments next) >>= k).runOn input).result =
      ((converse (next (replyOf function (Session.nextLine isBlankLine input).1)) >>= k).runOn
        (Session.nextLine isBlankLine input).2).result := by
  rw [converse]
  simp only [h]
  rfl

theorem serveLine_eq_serveRequest {line : Raw} {text : String} {request : Request}
    (hline : lineText line = .ok (some text)) (hread : Request.read? text = some request) :
    serveLine line = serveRequest request := by
  rw [serveLine, hline]
  simp only [hread]

/-! ### The end of a request -/

theorem stopsOnFault_ofFault_bind {Failed : Except Failure β → Prop} {x : Except Fault α}
    {f : α → Execution β} (h : ∀ a, (f a).run.StopsOnFault Failed) :
    (ofFault x >>= f).run.StopsOnFault Failed := by
  cases x with
  | error fault => trivial
  | ok a => exact h a

/-- The execution of a request is over, with a failure, when one of its calls has failed. -/
theorem execute_stopsOnFault (request : Request) :
    (execute request).run.StopsOnFault fun r => ∃ failure, r = .error failure := by
  refine stopsOnFault_ofFault_bind fun name => ?_
  refine stopsOnFault_ofFault_bind fun code => ?_
  refine stopsOnFault_ofFault_bind fun wires => ?_
  refine stopsOnFault_ofFault_bind fun arguments => ?_
  refine stopsOnFault_ofFault_bind fun program => ?_
  have hinvoke : ((liftM (Script.invoke program name arguments) : Execution _).run).StopsOnFault
      fun r => ∃ fault, r = .ok (.error fault) := by
    refine (Script.invoke_stopsOnFault program name arguments).bind ?_ fun _ => trivial
    rintro _ ⟨fault, rfl⟩
    exact ⟨_, rfl, fault, rfl⟩
  refine hinvoke.bind ?_ ?_
  · rintro _ ⟨fault, rfl⟩
    exact ⟨_, rfl, _, rfl⟩
  · rintro (failure | result)
    · trivial
    · refine stopsOnFault_ofFault_bind (x := result) fun result => ?_
      cases h : Codec.builtin.encode result (typeOf request) <;> trivial

/-! ### Calls on the streams -/

/-- The lines of an input that are not blank. -/
def nonBlankLines (input : Raw) : List Raw := Session.wanted isBlankLine input

theorem nextLine_nonBlankLines (input : Raw) :
    (Session.nextLine isBlankLine input).1 = (nonBlankLines input).headD [] ∧
      nonBlankLines (Session.nextLine isBlankLine input).2 = (nonBlankLines input).tail :=
  Session.nextLine_wanted isBlankLine input

/-- The line of a call, with its newline. -/
def callText (call : Json) : Raw := Raw.ofString (callLine call ++ "\n")

/-- Calls and the lines that are taken as replies to them; nothing when there are no more. -/
def exchanges : List Json → List Raw → List Act
  | [], _ => []
  | call :: calls, lines =>
    .wrote .output (callText call) :: .took (lines.headD []) :: exchanges calls lines.tail

/-- The object of a call is one. -/
theorem exists_obj_of_callObject {function : String} {arguments : List Value} {call : Json}
    (h : callObject function arguments = .ok call) : ∃ fields, call = .obj fields := by
  obtain ⟨fields, -, rfl⟩ := Traversal.map_eq_ok_iff.mp h
  exact ⟨fields, rfl⟩

/-- Whether a session makes some calls, but no more than a limit, takes for the reply to each the next
line that is not blank, and then goes on with a result of which a property holds, if there is one. -/
def Converses (Post : α → Prop) (k : Option α → Session β) (limit : Nat) (s : Session β) (input : Raw) :
    Prop :=
  ∃ calls r rest, (∀ call ∈ calls, ∃ fields, call = .obj fields) ∧ calls.length ≤ limit ∧
    (∀ a, r = some a → Post a) ∧
    s.actsOn input = exchanges calls (nonBlankLines input) ++ (k r).actsOn rest ∧
    (s.runOn input).result = ((k r).runOn rest).result

variable {Post : α → Prop} {k : Option α → Session β}

theorem Converses.done {r : Option α} (h : ∀ a, r = some a → Post a) (input : Raw) (limit : Nat) :
    Converses Post k limit (k r) input :=
  ⟨[], r, input, by simp, Nat.zero_le _, h, rfl, rfl⟩

/-- A call is one more, and its reply is the next line. -/
theorem Converses.call {input : Raw} {limit : Nat} {fields : List (String × Json)}
    {f : Raw → Session β}
    (h : Converses Post k limit (f ((nonBlankLines input).headD []))
      (Session.nextLine isBlankLine input).2) :
    Converses Post k (limit + 1)
      (.write .output (callText (.obj fields)) fun _ => .read isBlankLine f) input := by
  obtain ⟨calls, r, rest, hcalls, hlength, hr, hacts, hresult⟩ := h
  obtain ⟨hline, hrest⟩ := nextLine_nonBlankLines input
  refine ⟨.obj fields :: calls, r, rest, ?_, Nat.succ_le_succ hlength, hr, ?_, ?_⟩
  · exact List.forall_mem_cons.mpr ⟨⟨fields, rfl⟩, hcalls⟩
  · rw [hrest] at hacts
    rw [Session.actsOn, Session.actsOn, hline, hacts]
    rfl
  · rw [← hresult, ← hline]
    rfl

/-- The calls of a computation that is over when one of them has failed: when the input has ended, at
most one more is made. -/
theorem converses_converse {Reply : Except Fault Value → Prop} {Failed : α → Prop} {x : Talk α}
    (hstops : x.StopsOnFault Failed) (hpost : x.Ensures Reply Post)
    (hfault : ∀ fault, Reply (.error fault)) (hreply : ∀ function line, Reply (replyOf function line))
    (k : Option α → Session β) (input : Raw) :
    Converses Post k ((nonBlankLines input).length + 1) (converse x >>= k) input := by
  induction x generalizing input with
  | done a => exact .done (r := some a) (fun _ h => Option.some.inj h ▸ hpost) input _
  | call function arguments next ih =>
    rw [converse]
    split
    case h_1 cause _ => exact ih _ (hstops.2 _) (hpost _ (hfault _)) input
    case h_2 => exact .done (r := none) (fun _ h => nomatch h) input _
    case h_3 call hcall =>
      obtain ⟨fields, rfl⟩ := exists_obj_of_callObject hcall
      refine Converses.call (f := fun line => converse (next (replyOf function line)) >>= k) ?_
      cases hlines : nonBlankLines input with
      | nil =>
        obtain ⟨a, ha, -⟩ := hstops.1
          (.process ("Input closed before the call to " ++ function ++ " was answered."))
        have hclosed : next (replyOf function []) = .done a := ha
        have hdone := hpost _ (hreply function [])
        rw [hclosed] at hdone
        simp only [List.headD_nil, hclosed]
        exact .done (r := some a) (fun _ h => Option.some.inj h ▸ hdone) _ _
      | cons line lines =>
        have hlength : (nonBlankLines (Session.nextLine isBlankLine input).2).length = lines.length := by
          rw [(nextLine_nonBlankLines input).2, hlines, List.tail_cons]
        have hnext := ih (replyOf function line) (hstops.2 _) (hpost _ (hreply function line))
          (Session.nextLine isBlankLine input).2
        rwa [hlength] at hnext

/-! ### Requests -/

/-- What is done to answer with an envelope. -/
def answerActs (envelope : Json) : List Act :=
  [.wrote .output (Raw.ofString (envelope.render ++ "\n")),
    .wrote .diagnostics (Raw.ofString (endMark ++ "\n"))]

/-- Whether a session makes some calls, but no more than a limit, and then answers with an envelope. -/
def Frames (limit : Nat) (session : Session Ending) (input : Raw) : Prop :=
  ∃ calls envelope, (∀ call ∈ calls, ∃ fields, call = .obj fields) ∧ calls.length ≤ limit ∧
    Envelope.isAnswer envelope = true ∧
    session.actsOn input = exchanges calls (nonBlankLines input) ++ answerActs envelope

theorem frames_answer {envelope : Json} (h : Envelope.isAnswer envelope = true) (limit : Nat)
    (input : Raw) : Frames limit (answer envelope) input :=
  ⟨[], envelope, by simp, Nat.zero_le _, h, rfl⟩

/-- The request is answered after its calls. -/
theorem frames_serveRequest {request : Request} (hrequest : request.Holds Json.WellFormed) {input : Raw}
    (h : ((serveRequest request).runOn input).result = some .answered) :
    Frames ((nonBlankLines input).length + 1) (serveRequest request) input := by
  have hpost : (execute request).run.Ensures
      (fun r => ∀ v, r = .ok v → v.EveryDeclared Json.WellFormed) _ :=
    execute_ensures Json.compositional_wellFormed hrequest fun v hv => hv v rfl
  obtain ⟨calls, r, rest, hcalls, hlength, hr, hacts, hresult⟩ :=
    converses_converse (execute_stopsOnFault request) hpost (fun _ _ => nofun)
      (fun _ _ _ => everyDeclared_of_replyOf) _ input
  change (serveRequest request).actsOn input = _ at hacts
  change ((serveRequest request).runOn input).result = _ at hresult
  rw [hresult] at h
  refine ⟨calls, ?_⟩
  rcases r with _ | (⟨fault⟩ | ⟨⟩) | envelope
  · cases h
  · exact ⟨_, hcalls, hlength, Envelope.isAnswer_ofFault fault, hacts⟩
  · cases h
  · obtain ⟨wire, -, rfl⟩ := hr _ rfl envelope rfl
    exact ⟨_, hcalls, hlength, isAnswer_make_visible wire, hacts⟩

/-- The line of a request is answered after the calls of this request. -/
theorem frames_serveLine {line input : Raw} {limit : Nat}
    (hlimit : line ≠ [] → (nonBlankLines input).length + 1 ≤ limit)
    (h : ((serveLine line).runOn input).result = some .answered) :
    Frames limit (serveLine line) input := by
  unfold serveLine at h ⊢
  split at h
  case h_1 => cases h
  case h_2 => exact frames_answer (Envelope.isAnswer_ofFault _) _ _
  case h_3 text htext =>
    have hline : line ≠ [] := by
      rintro rfl
      cases htext
    split at h
    case h_1 request hrequest =>
      obtain ⟨calls, envelope, hcalls, hlength, hanswer, hacts⟩ :=
        frames_serveRequest (Request.holds_of_read? hrequest) h
      exact ⟨calls, envelope, hcalls, hlength.trans (hlimit hline), hanswer, hacts⟩
    case h_2 => exact frames_answer (Envelope.isAnswer_ofFault _) _ _

/-! ### What is written -/

theorem flatMap_output_exchanges (calls : List Json) (lines : List Raw) :
    (exchanges calls lines).flatMap (Act.textFor .output) = calls.flatMap callText := by
  induction calls generalizing lines with
  | nil => rfl
  | cons call calls ih => simp [exchanges, Act.textFor, ih]

theorem flatMap_diagnostics_exchanges (calls : List Json) (lines : List Raw) :
    (exchanges calls lines).flatMap (Act.textFor .diagnostics) = [] := by
  induction calls generalizing lines with
  | nil => rfl
  | cons call calls ih => simp [exchanges, Act.textFor, ih]

/-- Every call is on a line of its own. -/
theorem lines_flatMap_callText (calls : List Json) (rest : Raw) :
    Raw.lines (calls.flatMap callText ++ rest) = calls.map callText ++ Raw.lines rest := by
  induction calls with
  | nil => rfl
  | cons call calls ih =>
    have hline : '\n' ∉ (callLine call).toList := by
      rw [callLine, String.toList_append, List.mem_append, not_or]
      exact ⟨by decide, call.newline_notMem_render⟩
    rw [List.flatMap_cons, List.append_assoc, callText, Raw.lines_ofString_append hline, ih]
    rfl

/-! ### Calls that are not made -/

/-- Whether there is no function to call, or the arguments of a call cannot be passed on: one of them has
no value outside of scripts, or its value is not encoded. -/
def IsUnpassable (arguments : List Script.Datum) : Prop :=
  match Script.Eval.calledBack? arguments with
  | none => True
  | some (id, rest) =>
    match Script.Datum.toItems rest with
    | .error _ => True
    | .ok values => ∃ cause, callObject id values = .error (.error cause)

/-- A call that cannot be passed on fails without anything being done on the streams. -/
theorem converse_callBack {arguments : List Script.Datum} (h : IsUnpassable arguments)
    (store : Script.Store) (k : Except Script.Failure Script.Datum × Script.Store → Talk α) :
    ∃ failure, converse ((Script.callBack arguments).run.run store >>= k) =
      converse (k (.error failure, store)) := by
  rw [Script.Eval.run_callBack]
  unfold IsUnpassable at h
  split
  · exact ⟨_, rfl⟩
  · rename_i id rest hcalled
    rw [hcalled] at h
    split
    · exact ⟨_, rfl⟩
    · rename_i values hvalues
      simp only [hvalues] at h
      obtain ⟨cause, hcause⟩ := h
      refine ⟨.callback (.codec cause), ?_⟩
      show converse (.call id values _) = _
      rw [converse]
      simp only [hcause]
      rfl

/-! ### The protocol -/

/-- If a worker comes to its end, it has written a line for each of some calls, which is `call ` and a
compact object, and then one line more: an envelope that holds either a value or an error.  Beside that it
has said `end`.  It has taken one line that is not blank for the request, and then one after each call,
before it went on; only after the last call the input may have ended.  Nothing is done on the streams for
a call that cannot be passed on. -/
theorem serve_framed {input : Raw} (h : (serve.runOn input).result = some .answered) :
    (∃ calls envelope,
      Raw.lines (serve.runOn input).output =
        calls.map callText ++ [Raw.ofString (envelope.render ++ "\n")] ∧
      (∀ call ∈ calls, ∃ fields, call = .obj fields) ∧
      Envelope.isEnvelope envelope = true ∧ Envelope.Exclusive envelope ∧
      (serve.runOn input).diagnostics = Raw.ofString "end\n" ∧
      serve.actsOn input = .took ((nonBlankLines input).headD []) ::
        exchanges calls (nonBlankLines input).tail ++ answerActs envelope ∧
      calls.length ≤ (nonBlankLines input).length) ∧
    ∀ (arguments : List Script.Datum), IsUnpassable arguments → ∀ (store : Script.Store)
      (k : Except Script.Failure Script.Datum × Script.Store → Talk (Except Failure Json)),
        ∃ failure, converse ((Script.callBack arguments).run.run store >>= k) =
          converse (k (.error failure, store)) := by
  refine ⟨?_, fun arguments harguments store k => converse_callBack harguments store k⟩
  obtain ⟨hline, hrest⟩ := nextLine_nonBlankLines input
  have hserve : serve.actsOn input = .took (Session.nextLine isBlankLine input).1 ::
      (serveLine (Session.nextLine isBlankLine input).1).actsOn
        (Session.nextLine isBlankLine input).2 := rfl
  have hresult := h
  rw [result_runOn_serve] at hresult
  have hlimit : (Session.nextLine isBlankLine input).1 ≠ [] →
      (nonBlankLines (Session.nextLine isBlankLine input).2).length + 1 ≤
        (nonBlankLines input).length := by
    intro hne
    rw [hline] at hne
    rw [hrest, List.length_tail]
    cases hlines : nonBlankLines input with
    | nil => simp [hlines] at hne
    | cons line lines => simp
  obtain ⟨calls, envelope, hcalls, hlength, hanswer, hacts⟩ := frames_serveLine hlimit hresult
  rw [hacts, hline, hrest, ← List.cons_append] at hserve
  have hwritten : ∀ sink, (serve.actsOn input).flatMap (Act.textFor sink) =
      (exchanges calls (nonBlankLines input).tail).flatMap (Act.textFor sink) ++
        (answerActs envelope).flatMap (Act.textFor sink) := fun sink => by
    rw [hserve, List.flatMap_append, List.flatMap_cons]
    rfl
  refine ⟨calls, envelope, ?_, hcalls, (Bool.and_eq_true_iff.mp hanswer).1,
    .of_isAnswer hanswer, ?_, hserve, hlength⟩
  · have hanswered : (answerActs envelope).flatMap (Act.textFor .output) =
        Raw.ofString (envelope.render ++ "\n") ++ [] := rfl
    rw [Session.output_runOn, hwritten, flatMap_output_exchanges, hanswered, lines_flatMap_callText,
      Raw.lines_ofString_append envelope.newline_notMem_render, Raw.lines]
  · rw [Session.diagnostics_runOn, hwritten, flatMap_diagnostics_exchanges]
    rfl

/-! ### A request on the first line -/

/-- An object on a line of its own is what is read first. -/
theorem nextLine_render (fields : List (String × Json)) (rest : Raw) :
    Session.nextLine isBlankLine (Raw.ofString ((Json.obj fields).render ++ "\n") ++ rest) =
      (Raw.ofString ((Json.obj fields).render ++ "\n"), rest) := by
  obtain ⟨cs, hcs⟩ := Json.exists_toChars_obj fields
  have hline : Raw.ofString ((Json.obj fields).render ++ "\n") =
      (Json.obj fields).render.toList.map some ++ [some '\n'] := by
    rw [Raw.ofString, String.toList_append, List.map_append]
    rfl
  have hsplit := Raw.splitLine_map_some (Json.obj fields).newline_notMem_render rest
  have hblank : isBlankLine ((Json.obj fields).render.toList.map some ++ [some '\n']) = false := by
    have hopen : Text.isBlank '\x7b' = false := by decide
    rw [Json.render, String.toList_ofList, hcs]
    simp [isBlankLine, hopen]
  rw [hline, List.append_assoc, List.singleton_append]
  cases hinput : (Json.obj fields).render.toList.map some ++ some '\n' :: rest with
  | nil => simp at hinput
  | cons c input =>
    rw [Session.nextLine, ← hinput, hsplit]
    simp [hblank]

/-- What is read first is the text of the object. -/
theorem lineText_render (fields : List (String × Json)) :
    lineText (Raw.ofString ((Json.obj fields).render ++ "\n")) =
      .ok (some (Json.obj fields).render) := by
  have hne : Raw.ofString ((Json.obj fields).render ++ "\n") ≠ [] := by
    simp [Raw.ofString]
  have htrim : Text.trim ((Json.obj fields).render ++ "\n") = (Json.obj fields).render := by
    have hchars : Text.trimChars ([] ++ ((Json.obj fields).toChars ++ ['\n'])) =
        (Json.obj fields).toChars :=
      Json.trimChars_toChars_obj rfl (by decide) fields
    rw [Text.trim, String.toList_append, Json.render, String.toList_ofList]
    exact congrArg String.ofList hchars
  rw [lineText, if_neg hne, Raw.text?_ofString]
  simp only [htrim]

/-- The request to run a script that makes a call. -/
def callingRequest : Request where
  name := some "f"
  code := some "function f() \x7b call(\"Z2\"); return \"b\"; \x7d"
  arguments := []
  returnType := none

/-- The script of the request. -/
def callingProgram : Script.Program :=
  [.function (.mk "f" [] (.block [.expr (.call (.name "call") [.literal (.text "Z2")]),
    .return (some (.literal (.text "b")))]))]

theorem compile_calling :
    Script.compile "function f() \x7b call(\"Z2\"); return \"b\"; \x7d" = .ok callingProgram := by
  with_unfolding_all rfl

set_option maxRecDepth 20000 in
theorem invoke_callingProgram :
    Script.invoke callingProgram "f" [] =
      .call "Z2" [] fun reply => .done (reply.map fun _ => .text "b") := by
  cbv
  refine congrArg (Talk.call "Z2" []) (funext fun reply => ?_)
  cases reply <;> cbv

theorem read?_render_callingRequest :
    Request.read? callingRequest.render = some callingRequest := by
  rw [Request.read?, Request.render, Json.ofText?_render, Option.bind_some]
  rfl

theorem run_execute_callingRequest :
    (execute callingRequest).run =
      .call "Z2" [] fun reply => .done (match reply with
        | .ok _ => .ok (Envelope.make (some (Wire.text "b")) none)
        | .error fault => .error (.fault fault)) := by
  have hcode : codeOf callingRequest =
      .ok "function f() \x7b call(\"Z2\"); return \"b\"; \x7d" := by
    decide +kernel
  have hwire : Codec.builtin.encode (.text "b") (typeOf callingRequest) = .ok (Wire.text "b") :=
    Codec.encodeAny_eq _
  rw [execute, show nameOf callingRequest = .ok "f" from rfl, hcode]
  show (ofFault (Script.compile _) >>= _).run = _
  rw [compile_calling]
  show ((liftM (Script.invoke callingProgram "f" []) : Execution _) >>= _).run = _
  rw [invoke_callingProgram]
  refine congrArg (Talk.call "Z2" []) (funext fun reply => ?_)
  cases reply with
  | error fault => rfl
  | ok v =>
    show (ofEncode (Codec.builtin.encode (.text "b") (typeOf callingRequest)) >>= _).run = _
    rw [hwire]
    rfl

/-- The request is answered if there is no more input. -/
theorem result_runOn_callingRequest :
    ((serveRequest callingRequest).runOn []).result = some .answered := by
  have hcall : callObject "Z2" [] = .ok (.obj [("Z1K1", .str TypeId.call), ("Z7K1", .str "Z2")]) :=
    rfl
  have hend : Session.nextLine isBlankLine [] = ([], []) := by rw [Session.nextLine]
  have hreply : replyOf "Z2" [] = .error (.process ("Input closed before the call to " ++ "Z2" ++
      " was answered.")) := rfl
  rw [serveRequest, run_execute_callingRequest, result_runOn_call hcall, hend, hreply]
  exact result_runOn_answer _ _

/-- A worker calls a function, and its input ends before the reply. -/
theorem serve_framed_inputEnds :
    ∃ input, (serve.runOn input).result = some .answered ∧ ∃ (calls : List Json) (envelope : Json),
      Raw.lines (serve.runOn input).output =
        calls.map callText ++ [Raw.ofString (envelope.render ++ "\n")] ∧
      serve.actsOn input = .took ((nonBlankLines input).headD []) ::
        exchanges calls (nonBlankLines input).tail ++ answerActs envelope ∧
      Envelope.Exclusive envelope := by
  have hnext := nextLine_render callingRequest.fields []
  rw [List.append_nil] at hnext
  have hline : serveLine (Raw.ofString ((Json.obj callingRequest.fields).render ++ "\n")) =
      serveRequest callingRequest :=
    serveLine_eq_serveRequest (lineText_render callingRequest.fields) read?_render_callingRequest
  have hanswered :
      (serve.runOn (Raw.ofString ((Json.obj callingRequest.fields).render ++ "\n"))).result =
        some .answered := by
    rw [result_runOn_serve, hnext, hline]
    exact result_runOn_callingRequest
  obtain ⟨⟨calls, envelope, hlines, -, -, hexclusive, -, hacts, -⟩, -⟩ := serve_framed hanswered
  exact ⟨_, hanswered, calls, envelope, hlines, hacts, hexclusive⟩

end Worker

end Polyglot
